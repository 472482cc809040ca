import Mathlib.Data.List.Infix
import Gk7102.CommandDelivery

/-!
# The url of the song being played

`mozart_player_geturl` reads a length and then so many bytes, each with one `recv` that
is repeated only when interrupted, and copies them out of the block they came in.
-/

namespace Gk7102.PlayerUrl

open ByteBlocks PlayerConnection SocketCalls CommandDelivery
open PlayerCommand hiding sendCmd

set_option autoImplicit false

/-- `len` after a `recv` that stored `got` over the bytes of the −1 it started with. -/
def lengthWord (got : List Byte) : BitVec 32 :=
  decodeWord (got ++ (encodeWord (-1)).drop got.length)

/-- What becomes of `recv_player_url`. A block is the length and the bytes that came;
the rest of it is zero. -/
inductive Fetched where
  | waiting
  | null
  | block (len : BitVec 32) (body : List Byte)
deriving DecidableEq, Repr

/-- `lengthGot` is how many bytes of the length had come when it was compared with 0. -/
structure Fetch where
  lengthGot : Option Nat
  recvFailed : Bool
  fetched : Fetched
deriving DecidableEq, Repr

/-- From the second label on. -/
def recvBody (len : BitVec 32) (recvs : List CallOutcome) (stream : List Byte) : Bool × Fetched :=
  match retry CallOutcome.interrupted recvs with
  | none => (false, .waiting)
  | some (.failed _, _) => (true, .null)
  -- any count of bytes is taken, 0 at the end of the stream too
  | some (.moved more, _) =>
      (false, .block len ((CallOutcome.moved more).received len.toNat stream))

/-- `found` tells whether `malloc` finds memory for the block. -/
def recvPlayerUrl (found : Bool) (recvs : List CallOutcome) (stream : List Byte) : Fetch :=
  match retry CallOutcome.interrupted recvs with
  | none => ⟨none, false, .waiting⟩
  | some (.failed _, _) => ⟨none, true, .null⟩
  | some (.moved more, later) =>
      let got := (CallOutcome.moved more).received 4 stream
      let len := lengthWord got
      if len = 0 then ⟨some got.length, false, .null⟩
      else if found then
        let (failed, fetched) := recvBody len later ((CallOutcome.moved more).remaining 4 stream)
        ⟨some got.length, failed, fetched⟩
      else ⟨some got.length, false, .null⟩

/-- `copied` is how many bytes the copy takes from the block, and how many of them came.
`result` is `none` for a call that has not returned, `some none` for NULL, and otherwise the
whole block that is returned. -/
structure UrlRun where
  lengthGot : Option Nat
  copied : Option (Nat × Nat)
  recvFailed : Bool
  result : Option (Option (List Byte))
deriving DecidableEq, Repr

theorem cstring_no_nul (bytes : List Byte) : 0 ∉ cString bytes := by
  intro member
  have kept := (List.all_eq_true.mp List.all_takeWhile) 0 member
  exact absurd kept (by decide)

/-- `strncpy(url, url_recv->url, url_recv->len)` into `len + 1` fresh bytes, of which the last
keeps the `leftover` it had. -/
def copyUrl (len : Nat) (body : List Byte) (leftover : Byte) : List Byte :=
  let source := body ++ List.replicate (len + 1 - body.length) 0
  strncpy ⟨cString source, cstring_no_nul source⟩ len ++ [leftover]

/-- `copyBlock` is the last byte of the block `malloc` finds for the copy, if it finds one. -/
def copyOut (fetch : Fetch) (copyBlock : Option Byte) : UrlRun :=
  match fetch.fetched with
  | .waiting => ⟨fetch.lengthGot, none, fetch.recvFailed, none⟩
  | .null => ⟨fetch.lengthGot, none, fetch.recvFailed, some none⟩
  | .block len body =>
      if 0 < len.toInt then
        match copyBlock with
        | none => ⟨fetch.lengthGot, none, fetch.recvFailed, some none⟩
        | some leftover =>
            ⟨fetch.lengthGot, some (len.toNat, body.length), fetch.recvFailed,
              some (some (copyUrl len.toNat body leftover))⟩
      else ⟨fetch.lengthGot, none, fetch.recvFailed, some none⟩

def nullRun : UrlRun := ⟨none, none, false, some none⟩

def mozartPlayerGeturl (handler : Option Handler) (found : Bool) (copyBlock : Option Byte)
    (sends recvs : List CallOutcome) (stream : List Byte) : UrlRun :=
  match handler with
  | none => nullRun
  | some handler =>
      match createPlayerCommand (handler.request .geturl) with
      | none => nullRun
      | some cmd =>
          match sendCmd (some handler) (some cmd) sends with
          | none => ⟨none, none, false, none⟩
          | some sent =>
              if sent.ret = 0 then copyOut (recvPlayerUrl found recvs stream) copyBlock
              else nullRun

/-! ## What the caller is promised -/

def urlReply (url : CString) : List Byte :=
  encodeWord (BitVec.ofNat 32 url.bytes.length) ++ url.bytes

/-- The bytes of a reply that come before the server closes the connection. The length
of a url is sent as an `int`. -/
structure Arriving (url : CString) where
  fits : url.bytes.length < 2 ^ 31
  stream : List Byte
  front : stream <+: urlReply url

/-- The server closed early, or a `recv` of the call failed. -/
def Incomplete {url : CString} (arriving : Arriving url) (run : UrlRun) : Prop :=
  arriving.stream ≠ urlReply url ∨ run.recvFailed = true

/-- The whole url in a C string, or NULL for no url or for an incomplete reply; and
nothing is looked at that has not come. -/
structure Delivered {url : CString} (arriving : Arriving url) (run : UrlRun) : Prop where
  length_came : ∀ got ∈ run.lengthGot, got = 4
  bytes_came : ∀ copied ∈ run.copied, copied.2 = copied.1
  url_returned : ∀ block, run.result = some (some block) → 0 ∈ block ∧ cString block = url.bytes
  null_returned : run.result = some none → url.bytes = [] ∨ Incomplete arriving run

/-- What the second `recv` must do for a url of `len` bytes, and the memory found. -/
def BodyInOnePiece {url : CString} (arriving : Arriving url) (copyBlock : Option Byte)
    (stream : List Byte) (recvs : List CallOutcome) : Prop :=
  ∀ more later, retry CallOutcome.interrupted recvs = some (.moved more, later) →
    match copyBlock with
    | none => arriving.stream ≠ urlReply url
    | some leftover =>
        ((CallOutcome.moved more).received url.bytes.length stream).length = url.bytes.length ∧
          leftover = 0

/-- The `recv` that is not interrupted stores the whole length, and then the next one the
whole url, with memory for both blocks and a fresh last byte that happens to be 0. A `recv`
may also fail, and memory may be short while the reply is. -/
def ReplyInTwoPieces {url : CString} (arriving : Arriving url) (found : Bool)
    (copyBlock : Option Byte) (recvs : List CallOutcome) : Prop :=
  ∀ more later, retry CallOutcome.interrupted recvs = some (.moved more, later) →
    ((CallOutcome.moved more).received 4 arriving.stream).length = 4 ∧
      (url.bytes ≠ [] →
        if found then
          BodyInOnePiece arriving copyBlock ((CallOutcome.moved more).remaining 4 arriving.stream)
            later
        else arriving.stream ≠ urlReply url)

section Delivery

variable {url : CString} {arriving : Arriving url}

theorem delivered_waiting {got : Option Nat} {failed : Bool} (came : ∀ count ∈ got, count = 4) :
    Delivered arriving ⟨got, none, failed, none⟩ where
  length_came := came
  bytes_came := by
    intro copied member
    cases member
  url_returned := by
    intro block returned
    cases returned
  null_returned := by
    intro returned
    cases returned

theorem delivered_null_iff {got : Option Nat} {failed : Bool} (came : ∀ count ∈ got, count = 4) :
    Delivered arriving ⟨got, none, failed, some none⟩ ↔
      (url.bytes = [] ∨ arriving.stream ≠ urlReply url ∨ failed = true) := by
  constructor
  · intro delivered
    exact delivered.null_returned rfl
  · intro allowed
    constructor
    · exact came
    · intro copied member
      cases member
    · intro block returned
      cases returned
    · intro returned
      exact allowed

theorem delivered_block_iff {size came : Nat} {failed : Bool} {block : List Byte} :
    Delivered arriving ⟨some 4, some (size, came), failed, some (some block)⟩ ↔
      came = size ∧ 0 ∈ block ∧ cString block = url.bytes := by
  constructor
  · intro delivered
    exact ⟨delivered.bytes_came (size, came) rfl, delivered.url_returned block rfl⟩
  · intro whole
    constructor
    · intro count member
      cases member
      rfl
    · intro copied member
      cases member
      exact whole.1
    · intro other returned
      cases returned
      exact whole.2
    · intro returned
      cases returned

end Delivery

/-! ## The two reads -/

section Reads

variable {url : CString} (arriving : Arriving url)

theorem url_length_toNat (fits : url.bytes.length < 2 ^ 31) :
    (BitVec.ofNat 32 url.bytes.length).toNat = url.bytes.length := by
  rw [BitVec.toNat_ofNat, Nat.mod_eq_of_lt (by omega)]

theorem url_length_toInt (fits : url.bytes.length < 2 ^ 31) :
    (BitVec.ofNat 32 url.bytes.length).toInt = url.bytes.length := by
  rw [BitVec.toInt_eq_toNat_of_lt] <;> rw [url_length_toNat fits]
  omega

theorem length_word_received {outcome : CallOutcome}
    (whole : (outcome.received 4 arriving.stream).length = 4) :
    lengthWord (outcome.received 4 arriving.stream) = BitVec.ofNat 32 url.bytes.length := by
  have front := (received_starts outcome 4 arriving.stream).trans arriving.front
  have word : outcome.received 4 arriving.stream =
      encodeWord (BitVec.ofNat 32 url.bytes.length) := by
    rw [List.prefix_iff_eq_take.mp front, whole, urlReply]
    exact List.take_left' (encode_word_length _)
  rw [lengthWord, whole, word]
  exact (congrArg decodeWord (List.append_nil _)).trans (decode_word_encode _)

theorem remaining_starts {outcome : CallOutcome}
    (whole : (outcome.received 4 arriving.stream).length = 4) :
    outcome.remaining 4 arriving.stream <+: url.bytes := by
  have reply : (urlReply url).drop 4 = url.bytes := List.drop_left' (encode_word_length _)
  rw [CallOutcome.remaining, whole, ← reply]
  exact List.IsPrefix.drop arriving.front 4

theorem copy_url_whole (leftover : Byte) :
    copyUrl url.bytes.length url.bytes leftover = url.bytes ++ [leftover] := by
  have source : url.bytes ++ List.replicate (url.bytes.length + 1 - url.bytes.length) 0 =
      url.bytes ++ 0 :: [] := by
    rw [Nat.add_sub_cancel_left]
    rfl
  have text : cString (url.bytes ++ 0 :: []) = url.bytes := cstring_of_terminated url.no_nul []
  simp only [copyUrl, source, strncpy, text, List.take_length, Nat.sub_self, List.replicate_zero,
    List.append_nil]

/-- The copy is a C string only by the luck of the byte behind it. -/
theorem copy_terminated_iff (leftover : Byte) :
    (0 ∈ url.bytes ++ [leftover] ∧ cString (url.bytes ++ [leftover]) = url.bytes) ↔
      leftover = 0 := by
  constructor
  · intro terminated
    cases List.mem_append.mp terminated.1 with
    | inl inside => exact absurd inside url.no_nul
    | inr last => exact (List.mem_singleton.mp last).symm
  · rintro rfl
    exact ⟨by simp, cstring_of_terminated url.no_nul []⟩

end Reads

/-! ## What `mozart_player_geturl` returns -/

section Runs

variable {url : CString} (arriving : Arriving url) (found : Bool) (copyBlock : Option Byte)

theorem copy_out_length_got (fetch : Fetch) :
    (copyOut fetch copyBlock).lengthGot = fetch.lengthGot := by
  rw [copyOut]
  cases fetch.fetched with
  | waiting => rfl
  | null => rfl
  | block len body =>
      by_cases positive : 0 < len.toInt
      · cases copyBlock with
        | none => simp only [if_pos positive]
        | some leftover => simp only [if_pos positive]
      · simp only [if_neg positive]

theorem forall_moved {more : Nat} {later : List CallOutcome}
    (promise : Nat → List CallOutcome → Prop) :
    (∀ count rest, some (CallOutcome.moved more, later) = some (CallOutcome.moved count, rest) →
      promise count rest) ↔ promise more later := by
  constructor
  · intro every
    exact every more later rfl
  · intro kept count rest same
    cases same
    exact kept

theorem body_delivered_iff (present : url.bytes ≠ []) {stream : List Byte}
    (front : stream <+: url.bytes) (recvs : List CallOutcome) :
    Delivered arriving (copyOut ⟨some 4,
        (recvBody (BitVec.ofNat 32 url.bytes.length) recvs stream).1,
        (recvBody (BitVec.ofNat 32 url.bytes.length) recvs stream).2⟩ copyBlock) ↔
      BodyInOnePiece arriving copyBlock stream recvs := by
  have came : ∀ count ∈ some 4, count = 4 := by simp
  have positive : 0 < (BitVec.ofNat 32 url.bytes.length).toInt := by
    rw [url_length_toInt arriving.fits]
    have some := List.length_pos_iff.mpr present
    omega
  rw [recvBody, BodyInOnePiece]
  cases ended : retry CallOutcome.interrupted recvs with
  | none => simp only [copyOut, delivered_waiting came, reduceCtorEq, false_implies, implies_true]
  | some last =>
      obtain ⟨last, later⟩ := last
      cases last with
      | failed errno =>
          apply iff_of_true
          · apply (delivered_null_iff came).mpr
            exact .inr (.inr rfl)
          · intro more rest same
            cases same
      | moved more =>
          rw [forall_moved]
          simp only [copyOut, if_pos positive, url_length_toNat arriving.fits]
          cases copyBlock with
          | none =>
              rw [delivered_null_iff came]
              simp only [present, false_or, Bool.false_eq_true, or_false]
          | some leftover =>
              simp only [delivered_block_iff]
              apply and_congr_right
              intro whole
              have body :
                  CallOutcome.received url.bytes.length stream (.moved more) = url.bytes := by
                apply List.IsPrefix.eq_of_length ((received_starts _ _ _).trans front) whole
              rw [body, copy_url_whole, copy_terminated_iff]

theorem reply_delivered_iff (recvs : List CallOutcome) :
    Delivered arriving (copyOut (recvPlayerUrl found recvs arriving.stream) copyBlock) ↔
      ReplyInTwoPieces arriving found copyBlock recvs := by
  rw [recvPlayerUrl, ReplyInTwoPieces]
  cases ended : retry CallOutcome.interrupted recvs with
  | none =>
      apply iff_of_true
      · exact delivered_waiting (by simp)
      · intro more later same
        cases same
  | some last =>
      obtain ⟨last, later⟩ := last
      cases last with
      | failed errno =>
          apply iff_of_true
          · apply (delivered_null_iff (by simp)).mpr
            exact .inr (.inr rfl)
          · intro more rest same
            cases same
      | moved more =>
          rw [forall_moved]
          by_cases whole : ((CallOutcome.moved more).received 4 arriving.stream).length = 4
          · simp only [length_word_received arriving whole, whole, true_and]
            by_cases empty : url.bytes = []
            · have zero : BitVec.ofNat 32 url.bytes.length = 0 := by
                rw [empty]
                rfl
              rw [if_pos zero]
              apply iff_of_true
              · exact (delivered_null_iff (by simp)).mpr (.inl empty)
              · intro present
                exact absurd empty present
            · have nonzero : BitVec.ofNat 32 url.bytes.length ≠ 0 := by
                intro zero
                have value := congrArg BitVec.toNat zero
                rw [url_length_toNat arriving.fits] at value
                exact empty (List.length_eq_zero_iff.mp value)
              rw [if_neg nonzero]
              cases found with
              | true =>
                  rw [if_pos rfl, body_delivered_iff arriving copyBlock empty
                    (remaining_starts arriving whole) later]
                  simp [empty]
              | false =>
                  rw [if_neg (by decide)]
                  simp only [copyOut]
                  rw [delivered_null_iff (by simp)]
                  simp [empty]
          · apply iff_of_false
            · intro delivered
              apply whole
              apply delivered.length_came
              rw [copy_out_length_got]
              simp only
              split
              · rfl
              · split <;> rfl
            · intro pieces
              exact whole pieces.1

/-- What the call sends has the fixed size, so an interrupted `send` is always repeated. -/
theorem geturl_command (handler : Handler) :
    ∃ cmd, createPlayerCommand (handler.request .geturl) = some cmd ∧
      commandTotalSize cmd = BitVec.ofNat 32 sizeofPlayerCommand := by
  refine ⟨plainCommand handler.uuid handler.chNum CmdType.getUrl.code, rfl, ?_⟩
  have laid := @plain_command_layout handler.uuid (handler.request .geturl)
  exact (congrArg commandTotalSize laid).trans (total_size_layout _ _ _ _ _)

theorem geturl_run (handler : Handler) (sends recvs : List CallOutcome) (stream : List Byte) :
    mozartPlayerGeturl (some handler) found copyBlock sends recvs stream =
      if (retry CallOutcome.interrupted sends).isSome then
        copyOut (recvPlayerUrl found recvs stream) copyBlock
      else ⟨none, none, false, none⟩ := by
  obtain ⟨cmd, built, size⟩ := geturl_command handler
  have again : sendAgain (commandTotalSize cmd) = CallOutcome.interrupted := by
    apply send_again_of_size
    rw [size]
    decide
  simp only [mozartPlayerGeturl, built, sendCmd, again]
  cases retry CallOutcome.interrupted sends with
  | none => rfl
  | some last => rfl

end Runs

/-- `mozart_player_geturl` keeps its promise exactly when the command goes out to an answer
that `recv` cuts where the code expects it, and the byte behind the copy is 0 by chance. -/
theorem geturl_delivers_iff (handler : Handler) {url : CString} (arriving : Arriving url)
    (found : Bool) (copyBlock : Option Byte) (sends recvs : List CallOutcome) :
    Delivered arriving
        (mozartPlayerGeturl (some handler) found copyBlock sends recvs arriving.stream) ↔
      ((∃ send ∈ sends, send.interrupted = false) →
        ReplyInTwoPieces arriving found copyBlock recvs) := by
  rw [geturl_run, ← retry_isSome_iff]
  by_cases sent : (retry CallOutcome.interrupted sends).isSome = true
  · rw [if_pos sent, reply_delivered_iff]
    simp only [sent, forall_const]
  · rw [if_neg sent]
    apply iff_of_true
    · exact delivered_waiting (by simp)
    · intro ended
      exact absurd ended sent

def oneByteUrl : CString := ⟨[104], by decide⟩

def oneByteArriving : Arriving oneByteUrl := ⟨by decide, urlReply oneByteUrl, List.prefix_refl _⟩

/-- Nothing is cut or lost, and what is returned is not terminated. -/
theorem whole_url_not_terminated :
    ¬ ∀ (handler : Handler) (url : CString) (arriving : Arriving url) (found : Bool)
      (copyBlock : Option Byte) (sends recvs : List CallOutcome),
      Delivered arriving
        (mozartPlayerGeturl (some handler) found copyBlock sends recvs arriving.stream) := by
  intro always
  have delivered := always someHandler oneByteUrl oneByteArriving true (some 120) [.moved 47]
    [.moved 3, .moved 0]
  have returned := delivered.url_returned [104, 120] (by decide)
  exact absurd returned.1 (by decide)

end Gk7102.PlayerUrl
