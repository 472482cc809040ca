import Gk7102.JsonC
import Gk7102.OwnedCells

/-!
# Taking a voice response apart

`slot_resolve` releases what the previous response left in `asr_info` and fills
in what the next one has. The pointers of `asr_info`, and the two unions in it,
are cells of one word each, as on the 32-bit target: the members of a union share
their words by position. `strdup` never runs out of memory. A call that follows
NULL, writes past an array or frees what it must not has no result.
-/

namespace Gk7102.SlotResolve

open Gk7102.JsonC
open Gk7102.OwnedCells

set_option autoImplicit false

inductive Domain where
  | null
  | movie
  | music
  | weather
  | command
  | calendar
  | reminder
  | netfm
  | chat
  | story
  | joke
  | poetry
  | cookbook
  | stock
  | translate
deriving DecidableEq, Repr

inductive SdsState where
  | null
  | do
  | query
  | offernone
  | offer
  | interact
  | exit
deriving DecidableEq, Repr

def musicMax : Nat := 20

/-- The words of the sds union: a number and three words a song. -/
def payloadWords : Nat := 1 + 3 * musicMax

/-- The words of the sem union: those of its largest member, the command. -/
def semWords : Nat := 21

inductive Cell where
  | error
  | input
  | sem (word : Nat)
  | contextId
  | env
  | output
  | payload (word : Nat)
deriving DecidableEq, Repr

@[match_pattern] def commandOperation : Cell := .sem 2
def commandPosition : Cell := .sem 3
@[match_pattern] def commandVolume : Cell := .sem 10
def commandDate : Cell := .sem 18

@[match_pattern] def listNumber : Cell := .payload 0
def musicUrl (i : Nat) : Cell := .payload (1 + 3 * i)
def musicTitle (i : Nat) : Cell := .payload (2 + 3 * i)
def musicArtist (i : Nat) : Cell := .payload (3 + 3 * i)
def netfmTrack (i : Nat) : Cell := .payload (1 + 2 * i)
def netfmUrl (i : Nat) : Cell := .payload (2 + 2 * i)

structure AsrInfo where
  errId : Int
  semDomain : Domain
  nbestNumber : Int
  state : SdsState
  domain : Domain
  isMultSds : Bool
  memory : Cell → Word

/-- What `memset` makes of it; a word past a union is not one of its own. -/
def zeroedMemory : Cell → Word
  | .sem word => if word < semWords then .null else .outside
  | .payload word => if word < payloadWords then .null else .outside
  | _ => .null

def zeroed : AsrInfo where
  errId := 0
  semDomain := .null
  nbestNumber := 0
  state := .null
  domain := .null
  isMultSds := false
  memory := zeroedMemory

/-! ## Releasing -/

def semRange (count : Nat) : List (Op Cell) := release ((List.range count).map Cell.sem)

/-- The second `free` of the position stands where the date is meant. -/
def freeSemCommand : List (Op Cell) :=
  semRange 18 ++ [.free commandPosition, .store commandDate .null] ++ release [.sem 19, .sem 20]

def freeSemOne : Domain → List (Op Cell)
  | .movie => semRange 11
  | .music => semRange 9
  | .weather => semRange 7
  | .command => freeSemCommand
  | .reminder => semRange 7
  | .netfm => semRange 8
  | .story => semRange 4
  | .poetry => semRange 7
  | .cookbook => semRange 1
  | .stock => semRange 5
  | .translate => semRange 3
  | _ => []

def releaseIfSet (memory : Cell → Word) (cell : Cell) : List (Op Cell) :=
  if memory cell = .null then [] else release [cell]

def musicEntry (i : Nat) : List Cell := [musicUrl i, musicArtist i, musicTitle i]

def netfmEntry (i : Nat) : List Cell := [netfmUrl i, netfmTrack i]

/-- The entries below the number. An address taken for the number runs past them. -/
def freeSdsList (memory : Cell → Word) (entry : Nat → List Cell) : List (Op Cell) :=
  match memory listNumber with
  | .int number =>
      release ((List.range number.toNat).flatMap entry) ++ [.store listNumber .null]
  | _ => [.free (.payload payloadWords)]

def freeSdsPayload (memory : Cell → Word) : Domain → List (Op Cell)
  | .music => freeSdsList memory musicEntry
  | .netfm => freeSdsList memory netfmEntry
  | .weather => release [.payload 0, .payload 1, .payload 2, .payload 3]
  | .reminder => release [.payload 0, .payload 1, .payload 2]
  | .chat => release [.payload 0]
  | _ => []

def freeSds (info : AsrInfo) : List (Op Cell) :=
  releaseIfSet info.memory .env ++ releaseIfSet info.memory .contextId ++
    releaseIfSet info.memory .output ++ freeSdsPayload info.memory info.domain

/-- What `slot_free` does to the cells. -/
def slotFreeOps (info : AsrInfo) : List (Op Cell) :=
  release [.input] ++ release [.error] ++ freeSemOne info.semDomain ++ freeSds info

def slotFree (info : AsrInfo) : Option AsrInfo :=
  (executeAll info.memory (slotFreeOps info)).map fun memory =>
    { errId := 0, semDomain := .null, nbestNumber := 0, state := .null, domain := .null,
      isMultSds := false, memory := memory }

/-! ## Filling in -/

inductive Assignment where
  | store (cell : Cell) (word : Word)
  | isMultSds (value : Bool)
  | domain (value : Domain)
  | errId (value : Int)
deriving DecidableEq, Repr

def AsrInfo.assign (info : AsrInfo) : Assignment → AsrInfo
  | .store cell word => { info with memory := Function.update info.memory cell word }
  | .isMultSds value => { info with isMultSds := value }
  | .domain value => { info with domain := value }
  | .errId value => { info with errId := value }

/-- A `strdup` of the member, when there is one; the text is not checked. -/
def strdupMember (library : JsonLibrary) (object : JsonObject) (key : String) (cell : Cell) :
    Option (List Assignment) :=
  match jsonObjectObjectGetEx object key with
  | none => some []
  | some value =>
      match jsonObjectGetString library value with
      | none => none
      | some text => some [.store cell (.string text)]

def strdupText (library : JsonLibrary) (object : JsonObject) (key : String) (cell : Cell) :
    List Assignment :=
  match (jsonObjectObjectGetEx object key).bind (jsonObjectGetString library) with
  | none => []
  | some text => [.store cell (.string text)]

/-- A member of a song that the list has no place for is written past it. -/
def songMember (library : JsonLibrary) (song : JsonObject) (i : Nat) (key : String)
    (cell : Cell) : Option (List Assignment) :=
  match jsonObjectObjectGetEx song key with
  | none => some []
  | some _ => if i < musicMax then strdupMember library song key cell else none

def resolveSong (library : JsonLibrary) (content : JsonObject) (i : Nat) :
    Option (List Assignment) := do
  let song ← jsonObjectArrayGetIdx content i
  let url ← songMember library song i "linkUrl" (musicUrl i)
  let title ← songMember library song i "title" (musicTitle i)
  let artist ← songMember library song i "subTitle" (musicArtist i)
  some (url ++ title ++ artist)

def resolveContent (library : JsonLibrary) (content : JsonObject) (count : Nat) :
    Option (List Assignment) :=
  ((List.range count).mapM (resolveSong library content)).map List.flatten

/-- An absent count is NULL, and the integer of NULL is 0. -/
def widgetCount (library : JsonLibrary) (widget : JsonObject) : Int :=
  match jsonObjectObjectGetEx widget "count" with
  | none => 0
  | some count => jsonObjectGetInt library count

def resolveCount (library : JsonLibrary) (widget : JsonObject) : List Assignment :=
  match jsonObjectObjectGetEx widget "count" with
  | none => []
  | some count => [.store listNumber (.int (jsonObjectGetInt library count))]

def resolveWidget (library : JsonLibrary) (widget : JsonObject) : Option (List Assignment) :=
  match jsonObjectObjectGetEx widget "content" with
  | none => some (resolveCount library widget)
  | some content => do
      let entries ← resolveContent library content (widgetCount library widget).toNat
      some (resolveCount library widget ++ entries)

def resolveSession (library : JsonLibrary) (dm : JsonObject) : List Assignment :=
  match jsonObjectObjectGetEx dm "shouldEndSession" with
  | none => []
  | some value => [.isMultSds (jsonObjectGetBoolean library value)]

def resolveDm (library : JsonLibrary) (response : JsonObject) : Option (List Assignment) :=
  match jsonObjectObjectGetEx response "dm" with
  | none => some []
  | some dm =>
      match jsonObjectObjectGetEx dm "widget" with
      | none => some (resolveSession library dm)
      | some widget => do
          let music ← resolveWidget library widget
          some (music ++ resolveSession library dm)

def skillDomains : List (String × Domain) :=
  [("2018112200000023", .weather), ("2018040200000004", .weather),
    ("2018040200000012", .story), ("2018112200000078", .story),
    ("2018112200000065", .music), ("2018112200000035", .music),
    ("2018060500000011", .story), ("2018042400000005", .stock),
    ("2018042400000004", .poetry), ("2018112200000025", .poetry),
    ("2018112200000068", .chat), ("2018042800000002", .chat),
    ("2018050400000026", .chat), ("2018072300000026", .command),
    ("2018111600000003", .command), ("2018111600000036", .command)]

def skillDomain (skillId : String) : Option Domain := skillDomains.lookup skillId

def resolveSkill (library : JsonLibrary) (response : JsonObject) : List Assignment :=
  match (jsonObjectObjectGetEx response "skillId").bind (jsonObjectGetString library) with
  | none => []
  | some skillId =>
      match skillDomain skillId with
      | none => []
      | some domain => [.domain domain]

/-- The size of the buffers `https` and `http`. -/
def urlBuffer : Nat := 1024

/-- The text behind its first bytes; a character that is cut goes as a whole. -/
def skipBytes : Nat → List Char → List Char
  | 0, text => text
  | _ + 1, [] => []
  | count + 1, c :: text => skipBytes (count + 1 - c.utf8Size) text

/-- `https` loses its first five bytes and gets `http` in their place. -/
def httpUrl (https : String) : String := "http" ++ String.ofList (skipBytes 5 https.toList)

def resolveSpeakUrl (library : JsonLibrary) (response : JsonObject) :
    Option (List Assignment) :=
  match (jsonObjectObjectGetEx response "speakUrl").bind (jsonObjectGetString library) with
  | none => some []
  | some https =>
      if https.utf8ByteSize < urlBuffer then
        some [.store .output (.string (httpUrl https))]
      else none

def commandCell (text : String) : Option Cell :=
  if text = "下一个" ∨ text = "上一个" then some commandOperation
  else if text = "+" ∨ text = "-" ∨ text = "min" ∨ text = "max" then some commandVolume
  else none

def resolveSlot (library : JsonLibrary) (slot : JsonObject) : Option (List Assignment) :=
  match jsonObjectObjectGetEx slot "value" with
  | none => some []
  | some value => do
      let text ← jsonObjectGetString library value
      match commandCell text with
      | none => some []
      | some cell => some [.store cell (.string text)]

def resolveSemantics (library : JsonLibrary) (nlu : JsonObject) : Option (List Assignment) :=
  match ((jsonObjectObjectGetEx nlu "semantics").bind
      fun semantics => jsonObjectObjectGetEx semantics "request").bind
      fun request => jsonObjectObjectGetEx request "slots" with
  | none => some []
  | some slots => do
      let slot ← jsonObjectArrayGetIdx slots 0
      resolveSlot library slot

def resolveNlu (library : JsonLibrary) (response : JsonObject) : Option (List Assignment) :=
  match jsonObjectObjectGetEx response "nlu" with
  | none => some []
  | some nlu => do
      let input ← strdupMember library nlu "input" .input
      let semantics ← resolveSemantics library nlu
      some (input ++ strdupText library nlu "contextId" .contextId ++ semantics)

def resolveError (library : JsonLibrary) (response : JsonObject) : List Assignment :=
  match jsonObjectObjectGetEx response "error" with
  | none => [.errId 0]
  | some error =>
      match jsonObjectObjectGetEx error "errId" with
      | none => []
      | some errId => [.errId (jsonObjectGetInt library errId)]

def slotFill (library : JsonLibrary) (response : JsonObject) : Option (List Assignment) := do
  let dm ← resolveDm library response
  let output ← resolveSpeakUrl library response
  let nlu ← resolveNlu library response
  some (dm ++ resolveSkill library response ++ output ++
    strdupText library response "contextId" .contextId ++
    [.store commandVolume .null] ++ nlu ++ resolveError library response)

def slotResolve (library : JsonLibrary) (info : AsrInfo) (response : JsonObject) :
    Option AsrInfo := do
  let freed ← slotFree info
  let assignments ← slotFill library response
  some (assignments.foldl AsrInfo.assign freed)

/-- One response after the other; nothing comes after a call without a result. -/
def slotStep (library : JsonLibrary) (info : Option AsrInfo) (response : JsonObject) :
    Option AsrInfo :=
  info.bind fun held => slotResolve library held response

end Gk7102.SlotResolve
