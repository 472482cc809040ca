import Mathlib.Logic.Function.Basic
import Gk7102.PlayerConnection
import Gk7102.StepRuns

/-!
# Replies and the calls that wait for them

Threads share one handler. An entry point that waits for a reply holds
`player_internal_mutex` from its send to its last receive; the others send on the
same socket without it. Memory for a snapshot is allocated before its receive, memory for
a url between the receives of its length and its bytes. When that fails the entry point
returns, and what it has not read of its reply stays on the connection.
-/

namespace Gk7102.PlayerReplies

open ByteBlocks PlayerCommand PlayerConnection StepRuns

set_option autoImplicit false

/-! ## The threads -/

/-- Where a thread is in an entry point. `polling` is the callback thread between its
`pthread_mutex_trylock` and its unlock; what it reads comes from another socket. -/
inductive Phase where
  | idle
  | locking (entry : Entry) (cmd : List Byte)
  | sending (entry : Entry) (cmd : List Byte)
  | allocatingSnapshot (ticket : Nat)
  | receiving (ticket : Nat) (kind : ReplyKind)
  | allocatingUrl (ticket : Nat) (len : List TaggedByte)
  | receivingUrl (ticket : Nat) (len : List TaggedByte)
  | unlocking
  | polling

/-- What a call has read when it gives the mutex back. -/
structure Result where
  ticket : Nat
  kind : ReplyKind
  consumed : List TaggedByte

structure System (Thread : Type*) where
  mutex : Option Thread
  phases : Thread → Phase
  lane : Lane
  results : List Result

inductive Op (handler : Handler) (Thread : Type*) where
  | call (thread : Thread) (request : handler.Call)
  | poll (thread : Thread)
  /-- `allocated` is the answer of `malloc` where the thread calls it. -/
  | advance (thread : Thread) (allocated : Bool)
  | serve (reply : Reply)
  | deliver (count : Nat)

section Threads

variable {Thread : Type*} [DecidableEq Thread]

namespace System

def initial : System Thread := ⟨none, fun _ => .idle, ⟨[], [], [], [], 0⟩, []⟩

def setPhase (system : System Thread) (thread : Thread) (phase : Phase) : System Thread :=
  { system with phases := Function.update system.phases thread phase }

def receivePhase (ticket : Nat) : ReplyKind → Phase
  | .snapshot => .allocatingSnapshot ticket
  | kind => .receiving ticket kind

def sendStep (system : System Thread) (thread : Thread) (entry : Entry) (cmd : List Byte) :
    System Thread :=
  { system with lane := system.lane.send cmd }.setPhase thread
    (match entry.awaits with
      | some kind => receivePhase system.lane.nextTicket kind
      | none => if entry.locks then .unlocking else .idle)

/-- The call is done with the connection, of which `rest` is left. -/
def finish (system : System Thread) (thread : Thread) (result : Result)
    (rest : List TaggedByte) : System Thread :=
  { system with
    lane := { system.lane with stream := rest }
    results := system.results ++ [result] }.setPhase thread .unlocking

def receiveStep (system : System Thread) (thread : Thread) (ticket : Nat) (kind : ReplyKind) :
    System Thread :=
  match recv (firstRecv kind) system.lane.stream with
  | none => system
  | some (bytes, rest) =>
      if kind = .url ∧ wordOf bytes ≠ 0 then
        { system with lane := { system.lane with stream := rest } }.setPhase thread
          (.allocatingUrl ticket bytes)
      else system.finish thread ⟨ticket, kind, bytes⟩ rest

def receiveUrlStep (system : System Thread) (thread : Thread) (ticket : Nat)
    (len : List TaggedByte) : System Thread :=
  match recv (wordOf len).toNat system.lane.stream with
  | none => system
  | some (bytes, rest) => system.finish thread ⟨ticket, .url, len ++ bytes⟩ rest

/-- Without memory the call returns at once. -/
def allocateStep (system : System Thread) (thread : Thread) (allocated : Bool) (next : Phase)
    (unread : Result) : System Thread :=
  if allocated then system.setPhase thread next
  else system.finish thread unread system.lane.stream

def advance (system : System Thread) (thread : Thread) (allocated : Bool) : System Thread :=
  match system.phases thread with
  | .idle => system
  | .locking entry cmd =>
      if system.mutex = none then
        { system with mutex := some thread }.setPhase thread (.sending entry cmd)
      else system
  | .sending entry cmd => system.sendStep thread entry cmd
  | .allocatingSnapshot ticket =>
      system.allocateStep thread allocated (.receiving ticket .snapshot) ⟨ticket, .snapshot, []⟩
  | .receiving ticket kind => system.receiveStep thread ticket kind
  | .allocatingUrl ticket len =>
      system.allocateStep thread allocated (.receivingUrl ticket len) ⟨ticket, .url, len⟩
  | .receivingUrl ticket len => system.receiveUrlStep thread ticket len
  | .unlocking | .polling => { system with mutex := none }.setPhase thread .idle

/-- The entry point creates its command first; without one it returns at once. -/
def beginCall (handler : Handler) (system : System Thread) (thread : Thread) (call : ApiCall) :
    System Thread :=
  match system.phases thread, createPlayerCommand (handler.request call) with
  | .idle, some cmd =>
      system.setPhase thread
        (if call.entry.locks then .locking call.entry cmd else .sending call.entry cmd)
  | _, _ => system

/-- The mutex is only tried. -/
def beginPoll (system : System Thread) (thread : Thread) : System Thread :=
  match system.phases thread, system.mutex with
  | .idle, none => { system with mutex := some thread }.setPhase thread .polling
  | _, _ => system

def step (handler : Handler) (system : System Thread) : Op handler Thread → System Thread
  | .call thread request => system.beginCall handler thread request.call
  | .poll thread => system.beginPoll thread
  | .advance thread allocated => system.advance thread allocated
  | .serve reply => { system with lane := system.lane.serve reply }
  | .deliver count => { system with lane := system.lane.deliver count }

end System

/-! ## The invariant -/

def Phase.holds : Phase → Bool
  | .idle | .locking _ _ => false
  | .sending entry _ => entry.locks
  | .allocatingSnapshot _ | .receiving _ _ | .allocatingUrl _ _ | .receivingUrl _ _ => true
  | .unlocking | .polling => true

/-- The reply a thread has asked for and what it has read of it. -/
def Phase.waiting : Phase → Option (Nat × ReplyKind × List TaggedByte)
  | .allocatingSnapshot ticket => some (ticket, .snapshot, [])
  | .receiving ticket kind => some (ticket, kind, [])
  | .allocatingUrl ticket len => some (ticket, .url, len)
  | .receivingUrl ticket len => some (ticket, .url, len)
  | _ => none

/-- What the entry points put into their phases. -/
def Phase.Sound : Phase → Prop
  | .locking entry cmd => answerKind cmd = entry.awaits ∧ entry.locks
  | .sending entry cmd => answerKind cmd = entry.awaits ∧ (entry.awaits.isSome → entry.locks)
  | .allocatingUrl _ len => len.length = 4 ∧ wordOf len ≠ 0
  | .receivingUrl _ len => len.length = 4
  | _ => True

/-- Where memory for a reply is allocated, it is there. -/
def Allocates {handler : Handler} (system : System Thread) : Op handler Thread → Prop
  | .advance thread allocated =>
      match system.phases thread with
      | .allocatingSnapshot _ | .allocatingUrl _ _ => allocated = true
      | _ => True
  | _ => True

/-- Replies and calls are paired: a finished call has read the reply to its own
command and nothing else, no reply is lost or read twice, and nothing is left on the
connection when no call is pending. -/
structure Paired (system : System Thread) : Prop where
  own_reply : ∀ result ∈ system.results, ∃ reply, (result.ticket, reply) ∈ system.lane.answers ∧
    reply.kind = result.kind ∧ result.consumed = reply.tagged result.ticket
  answered_once : (system.lane.answers.map Prod.fst).Nodup
  read_once : (system.results.map Result.ticket).Nodup
  accounted : ∀ answer ∈ system.lane.answers,
    (∃ result ∈ system.results, result.ticket = answer.1) ∨
      ∃ thread kind got, (system.phases thread).waiting = some (answer.1, kind, got)
  drained : (∀ thread, (system.phases thread).waiting = none) →
    system.lane.stream = [] ∧ system.lane.outgoing = []

structure Inv (system : System Thread) : Prop where
  well_formed : system.lane.WellFormed
  holder : ∀ thread, (system.phases thread).holds ↔ system.mutex = some thread
  sound : ∀ thread, (system.phases thread).Sound
  quiet : (∀ thread, (system.phases thread).waiting = none) → system.lane.Quiet
  owed : ∀ thread ticket kind got, (system.phases thread).waiting = some (ticket, kind, got) →
    system.lane.Owes ticket kind got ∧ ticket ∉ system.results.map Result.ticket
  own_reply : ∀ result ∈ system.results, ∃ reply, (result.ticket, reply) ∈ system.lane.answers ∧
    reply.kind = result.kind ∧ result.consumed = reply.tagged result.ticket
  read_once : (system.results.map Result.ticket).Nodup
  accounted : ∀ answer ∈ system.lane.answers,
    (∃ result ∈ system.results, result.ticket = answer.1) ∨
      ∃ thread kind got, (system.phases thread).waiting = some (answer.1, kind, got)

theorem Phase.holds_of_waiting {phase : Phase} {view : Nat × ReplyKind × List TaggedByte}
    (waiting : phase.waiting = some view) : phase.holds = true := by
  cases phase with
  | allocatingSnapshot | receiving | allocatingUrl | receivingUrl => rfl
  | idle | locking | sending | unlocking | polling => cases waiting

section Preserved

variable {system : System Thread} {thread : Thread}

omit [DecidableEq Thread] in
/-- Whoever waits holds the mutex, so no one else does either. -/
theorem Inv.sole_waiter (inv : Inv system) {other : Thread}
    {view : Nat × ReplyKind × List TaggedByte} (held : (system.phases thread).holds)
    (waiting : (system.phases other).waiting = some view) : other = thread := by
  have here := (inv.holder thread).mp held
  have there := (inv.holder other).mp (Phase.holds_of_waiting waiting)
  exact Option.some.inj (there.symm.trans here)

theorem Inv.move (inv : Inv system) {phase : Phase} {mutex : Option Thread}
    (before : (system.phases thread).waiting = none) (after : phase.waiting = none)
    (sound : phase.Sound) (held : phase.holds ↔ mutex = some thread)
    (others : ∀ other, other ≠ thread → (mutex = some other ↔ system.mutex = some other)) :
    Inv ({ system with mutex := mutex }.setPhase thread phase) := by
  have waiting : ∀ other, (Function.update system.phases thread phase other).waiting =
      (system.phases other).waiting := by
    intro other
    by_cases same : other = thread
    · rw [same, Function.update_self, after, before]
    · rw [Function.update_of_ne same]
  have quiet : (∀ other, (Function.update system.phases thread phase other).waiting = none) →
      system.lane.Quiet := by
    intro none
    apply inv.quiet
    intro other
    rw [← waiting other]
    exact none other
  constructor
  · exact inv.well_formed
  · intro other
    by_cases same : other = thread
    · subst same
      simpa only [System.setPhase, Function.update_self] using held
    · simp only [System.setPhase, Function.update_of_ne same]
      exact (inv.holder other).trans (others other same).symm
  · intro other
    by_cases same : other = thread
    · subst same
      simpa only [System.setPhase, Function.update_self] using sound
    · simp only [System.setPhase, Function.update_of_ne same]
      exact inv.sound other
  · exact quiet
  · intro other ticket kind got view
    exact inv.owed other ticket kind got ((waiting other).symm.trans view)
  · exact inv.own_reply
  · exact inv.read_once
  · intro answer known
    rcases inv.accounted answer known with done | ⟨other, kind, got, view⟩
    · exact .inl done
    · exact .inr ⟨other, kind, got, (waiting other).trans view⟩

omit [DecidableEq Thread] in
theorem Inv.with_lane (inv : Inv system) {lane : Lane} (well : lane.WellFormed)
    (quiet : system.lane.Quiet → lane.Quiet)
    (owes : ∀ ticket kind got, system.lane.Owes ticket kind got → lane.Owes ticket kind got)
    (kept : ∀ answer ∈ system.lane.answers, answer ∈ lane.answers)
    (served : ∀ answer ∈ lane.answers, answer ∈ system.lane.answers ∨
      ∃ other kind got, (system.phases other).waiting = some (answer.1, kind, got)) :
    Inv { system with lane := lane } where
  well_formed := well
  holder := inv.holder
  sound := inv.sound
  quiet none := quiet (inv.quiet none)
  owed other ticket kind got view :=
    ⟨owes ticket kind got (inv.owed other ticket kind got view).1,
      (inv.owed other ticket kind got view).2⟩
  own_reply result member := by
    obtain ⟨reply, known, rest⟩ := inv.own_reply result member
    exact ⟨reply, kept _ known, rest⟩
  read_once := inv.read_once
  accounted answer known := by
    rcases served answer known with earlier | waits
    · exact inv.accounted answer earlier
    · exact .inr waits

omit [DecidableEq Thread] in
theorem Inv.send_silent (inv : Inv system) {cmd : List Byte} (silent : answerKind cmd = none) :
    Inv { system with lane := system.lane.send cmd } :=
  inv.with_lane (Lane.send_well_formed inv.well_formed cmd)
    (fun quiet => Lane.quiet_send_silent quiet silent)
    (fun _ _ _ owes => Lane.owes_send_silent owes silent)
    (fun _ known => known) (fun _ known => .inl known)

omit [DecidableEq Thread] in
theorem Inv.deliver (inv : Inv system) (count : Nat) :
    Inv { system with lane := system.lane.deliver count } :=
  inv.with_lane (Lane.deliver_well_formed inv.well_formed count)
    (fun quiet => Lane.quiet_deliver count quiet)
    (fun _ _ _ owes => Lane.owes_deliver count owes)
    (fun _ known => known) (fun _ known => .inl known)

omit [DecidableEq Thread] in
theorem Inv.serve (inv : Inv system) (reply : Reply) :
    Inv { system with lane := system.lane.serve reply } := by
  apply inv.with_lane (Lane.serve_well_formed inv.well_formed reply) Lane.quiet_serve
    fun _ _ _ owes => Lane.owes_serve owes
  · intro answer known
    rcases system.lane.serve_cases reply with same | ⟨ticket, cmd, rest, -, taken | answered⟩
    · rwa [same]
    · rwa [taken.2]
    · rw [answered.2]
      exact List.mem_append_left _ known
  · intro answer known
    rcases system.lane.serve_cases reply with same | ⟨ticket, cmd, rest, inFlight, turn⟩
    · exact .inl (same ▸ known)
    rcases turn with taken | ⟨kinds, answered⟩
    · rw [taken.2] at known
      exact .inl known
    rw [answered, List.mem_append, List.mem_singleton] at known
    rcases known with earlier | rfl
    · exact .inl earlier
    right
    -- the command at the head is answered, so it is the one a thread waits for
    by_contra unawaited
    by_cases waits : ∃ other view, (system.phases other).waiting = some view
    · obtain ⟨other, ⟨first, kind, got⟩, view⟩ := waits
      have sameTicket := Lane.ticket_of_owes (inv.owed other first kind got view).1 inFlight
        (by simp [kinds])
      subst sameTicket
      exact unawaited ⟨other, kind, got, view⟩
    · have quiet := inv.quiet fun other => by
        cases view : (system.phases other).waiting with
        | none => rfl
        | some asked => exact absurd ⟨other, asked, view⟩ waits
      have silent := quiet.1 (ticket, cmd) (by simp [inFlight])
      simp [silent] at kinds

omit [DecidableEq Thread] in
theorem Inv.others_silent (inv : Inv system) (held : (system.phases thread).holds)
    {other : Thread} (distinct : other ≠ thread) : (system.phases other).waiting = none := by
  cases view : (system.phases other).waiting with
  | none => rfl
  | some asked => exact absurd (inv.sole_waiter held view) distinct

omit [DecidableEq Thread] in
theorem Inv.quiet_of_holder (inv : Inv system) (held : (system.phases thread).holds)
    (silent : (system.phases thread).waiting = none) : system.lane.Quiet := by
  apply inv.quiet
  intro other
  by_cases same : other = thread
  · rw [same, silent]
  · exact inv.others_silent held same

theorem Inv.holder_kept (inv : Inv system) (held : (system.phases thread).holds) {phase : Phase}
    (holds : phase.holds) (other : Thread) :
    (Function.update system.phases thread phase other).holds ↔ system.mutex = some other := by
  by_cases same : other = thread
  · subst same
    rw [Function.update_self]
    exact ⟨fun _ => (inv.holder other).mp held, fun _ => holds⟩
  · rw [Function.update_of_ne same]
    exact inv.holder other

theorem sound_kept (inv : Inv system) {phase : Phase} (sound : phase.Sound)
    (other : Thread) : (Function.update system.phases thread phase other).Sound := by
  by_cases same : other = thread
  · rw [same, Function.update_self]
    exact sound
  · rw [Function.update_of_ne same]
    exact inv.sound other

theorem Inv.wait (inv : Inv system) (held : (system.phases thread).holds) {phase : Phase}
    {lane : Lane} {ticket : Nat} {kind : ReplyKind} {got : List TaggedByte}
    (waiting : phase.waiting = some (ticket, kind, got)) (sound : phase.Sound)
    (well : lane.WellFormed) (owes : lane.Owes ticket kind got)
    (unread : ticket ∉ system.results.map Result.ticket)
    (answers : lane.answers = system.lane.answers)
    (goesOn : ∀ first asked, (system.phases thread).waiting = some (first, asked) →
      first = ticket) :
    Inv ({ system with lane := lane }.setPhase thread phase) where
  well_formed := well
  holder := inv.holder_kept held (Phase.holds_of_waiting waiting)
  sound := sound_kept inv sound
  quiet none := by
    have here := none thread
    simp only [System.setPhase, Function.update_self, waiting] at here
    cases here
  owed other first asked read view := by
    by_cases same : other = thread
    · simp only [System.setPhase, same, Function.update_self, waiting, Option.some.injEq,
        Prod.mk.injEq] at view
      obtain ⟨rfl, rfl, rfl⟩ := view
      exact ⟨owes, unread⟩
    · simp only [System.setPhase, Function.update_of_ne same] at view
      rw [inv.others_silent held same] at view
      cases view
  own_reply result member := by
    simp only [System.setPhase, answers]
    exact inv.own_reply result member
  read_once := inv.read_once
  accounted answer known := by
    simp only [System.setPhase, answers] at known ⊢
    rcases inv.accounted answer known with done | ⟨other, asked, read, view⟩
    · exact .inl done
    · have same : other = thread := inv.sole_waiter held view
      subst same
      right
      refine ⟨other, kind, got, ?_⟩
      rw [Function.update_self, waiting, goesOn _ _ view]

theorem Inv.finish (inv : Inv system) {ticket : Nat} {kind : ReplyKind}
    {got consumed rest : List TaggedByte}
    (waiting : (system.phases thread).waiting = some (ticket, kind, got))
    (quiet : Lane.Quiet { system.lane with stream := rest }) {reply : Reply}
    (known : (ticket, reply) ∈ system.lane.answers) (fitting : reply.kind = kind)
    (whole : consumed = reply.tagged ticket) :
    Inv (system.finish thread ⟨ticket, kind, consumed⟩ rest) where
  well_formed := ⟨inv.well_formed.nodup, inv.well_formed.fresh⟩
  holder := inv.holder_kept (Phase.holds_of_waiting waiting) rfl
  sound := sound_kept inv trivial
  quiet _ := quiet
  owed other first asked read view := by
    by_cases same : other = thread
    · simp only [System.finish, System.setPhase, same, Function.update_self] at view
      cases view
    · simp only [System.finish, System.setPhase, Function.update_of_ne same] at view
      rw [inv.others_silent (Phase.holds_of_waiting waiting) same] at view
      cases view
  own_reply result member := by
    rcases List.mem_append.mp member with earlier | last
    · exact inv.own_reply result earlier
    · rw [List.mem_singleton.mp last]
      exact ⟨reply, known, fitting, whole⟩
  read_once := by
    simp only [System.finish, System.setPhase, List.map_append, List.map_cons, List.map_nil]
    apply List.nodup_append.mpr
    refine ⟨inv.read_once, List.pairwise_singleton _ _, ?_⟩
    rintro first member other only rfl
    rw [List.mem_singleton] at only
    exact (inv.owed thread ticket kind got waiting).2 (only ▸ member)
  accounted answer member := by
    rcases inv.accounted answer member with ⟨result, earlier, same⟩ | ⟨other, asked, read, view⟩
    · exact .inl ⟨result, List.mem_append_left _ earlier, same⟩
    · left
      have here := inv.sole_waiter (Phase.holds_of_waiting waiting) view
      rw [here, waiting] at view
      refine ⟨⟨ticket, kind, consumed⟩, List.mem_append_right _ (List.mem_singleton_self _), ?_⟩
      exact congrArg Prod.fst (Option.some.inj view)

theorem Inv.finish_complete (inv : Inv system) {ticket : Nat} {kind : ReplyKind}
    {got consumed rest : List TaggedByte}
    (waiting : (system.phases thread).waiting = some (ticket, kind, got))
    (answered : Lane.Answered { system.lane with stream := rest } ticket kind consumed)
    (complete : Complete kind consumed) :
    Inv (system.finish thread ⟨ticket, kind, consumed⟩ rest) := by
  obtain ⟨silent, reply, known, rfl, bytes⟩ := answered
  have empty := complete_is_whole bytes complete
  apply inv.finish waiting ⟨silent, empty⟩ known rfl
  rw [← bytes, empty, List.append_nil]

theorem Inv.receive_step (inv : Inv system) {ticket : Nat} {kind : ReplyKind}
    (phase : system.phases thread = .receiving ticket kind) :
    Inv (system.receiveStep thread ticket kind) := by
  have waiting : (system.phases thread).waiting = some (ticket, kind, []) := by
    rw [phase]
    rfl
  rw [System.receiveStep]
  cases read : recv (firstRecv kind) system.lane.stream with
  | none => exact inv
  | some both =>
      obtain ⟨bytes, rest⟩ := both
      have size := (recv_split read).2
      have nonempty : bytes ≠ [] := by
        rintro rfl
        cases kind <;> cases size
      have owed := inv.owed thread ticket kind [] waiting
      have answered := Lane.answered_of_read owed.1 read nonempty
      simp only
      split
      · rename_i more
        obtain ⟨rfl, more⟩ := more
        exact inv.wait (Phase.holds_of_waiting waiting) rfl ⟨size, more⟩
          ⟨inv.well_formed.nodup, inv.well_formed.fresh⟩ (.inr answered) owed.2 rfl
          fun first asked view => by
            rw [waiting] at view
            exact (congrArg Prod.fst (Option.some.inj view)).symm
      · rename_i last
        apply inv.finish_complete waiting answered
        cases kind with
        | feadback => exact size
        | snapshot => exact size
        | url =>
            have zero : wordOf bytes = 0 := by
              by_contra more
              exact last ⟨rfl, more⟩
            have all : bytes.take 4 = bytes := List.take_of_length_le (by rw [size]; rfl)
            simp only [Complete, List.nil_append, all, zero, size]
            rfl

theorem Inv.receive_url_step (inv : Inv system) {ticket : Nat} {len : List TaggedByte}
    (phase : system.phases thread = .receivingUrl ticket len) :
    Inv (system.receiveUrlStep thread ticket len) := by
  have waiting : (system.phases thread).waiting = some (ticket, .url, len) := by
    rw [phase]
    rfl
  have lenSize : len.length = 4 := by
    have sound := inv.sound thread
    rwa [phase] at sound
  rw [System.receiveUrlStep]
  cases read : recv (wordOf len).toNat system.lane.stream with
  | none => exact inv
  | some both =>
      obtain ⟨bytes, rest⟩ := both
      have size := (recv_split read).2
      have nonempty : len ++ bytes ≠ [] := by
        intro empty
        rw [(List.append_eq_nil_iff.mp empty).1] at lenSize
        cases lenSize
      have answered :=
        Lane.answered_of_read (inv.owed thread ticket .url len waiting).1 read nonempty
      apply inv.finish_complete waiting answered
      simp only [Complete, List.length_append, size, List.take_left' lenSize, lenSize]

theorem receive_phase_waiting (ticket : Nat) (kind : ReplyKind) :
    (System.receivePhase ticket kind).waiting = some (ticket, kind, []) ∧
      (System.receivePhase ticket kind).Sound := by
  cases kind <;> exact ⟨rfl, trivial⟩

theorem Inv.allocate_step (inv : Inv system) {phase : Phase} {ticket : Nat} {kind : ReplyKind}
    {got : List TaggedByte} (before : (system.phases thread).waiting = some (ticket, kind, got))
    (after : phase.waiting = some (ticket, kind, got)) (sound : phase.Sound) :
    Inv (system.setPhase thread phase) := by
  have owed := inv.owed thread ticket kind got before
  apply inv.wait (Phase.holds_of_waiting before) after sound inv.well_formed owed.1 owed.2 rfl
  intro first asked view
  rw [before] at view
  exact (congrArg Prod.fst (Option.some.inj view)).symm

/-- An unanswered command is sent without waiting, an answered one by a thread that
holds the mutex and goes on to receive. -/
theorem Inv.send_step (inv : Inv system) {entry : Entry} {cmd : List Byte}
    (phase : system.phases thread = .sending entry cmd) :
    Inv (system.sendStep thread entry cmd) := by
  have sound : answerKind cmd = entry.awaits ∧ (entry.awaits.isSome → entry.locks) := by
    have here := inv.sound thread
    rwa [phase] at here
  have silent : (system.phases thread).waiting = none := by
    rw [phase]
    rfl
  have held : (system.phases thread).holds ↔ entry.locks := by
    rw [phase]
    rfl
  rw [System.sendStep]
  cases awaits : entry.awaits with
  | none =>
      have sent := inv.send_silent (sound.1.trans awaits)
      apply sent.move silent
      · cases entry.locks <;> rfl
      · cases entry.locks <;> exact trivial
      · rw [← inv.holder thread, held]
        cases entry.locks <;> simp [Phase.holds]
      · exact fun _ _ => Iff.rfl
  | some kind =>
      have locks := held.mpr (sound.2 (by rw [awaits]; rfl))
      have asked := Lane.asked_send (inv.quiet_of_holder locks silent)
        (sound.1.trans awaits)
      have waits := receive_phase_waiting system.lane.nextTicket kind
      apply inv.wait locks waits.1 waits.2 (Lane.send_well_formed inv.well_formed cmd)
        (.inl ⟨rfl, asked⟩) _ rfl
      · intro first asked view
        rw [silent] at view
        cases view
      · intro used
        obtain ⟨result, member, same⟩ := List.mem_map.mp used
        obtain ⟨reply, known, -⟩ := inv.own_reply result member
        have below := inv.well_formed.fresh result.ticket
          (List.mem_append_left _ (List.mem_map_of_mem known))
        rw [same] at below
        exact Nat.lt_irrefl _ below

theorem Inv.unlock (inv : Inv system) (held : (system.phases thread).holds)
    (silent : (system.phases thread).waiting = none) :
    Inv ({ system with mutex := none }.setPhase thread .idle) := by
  have mine := (inv.holder thread).mp held
  have idle : Phase.idle.Sound := trivial
  apply inv.move silent rfl idle
  · exact ⟨fun none => absurd none Bool.false_ne_true, fun none => absurd none.symm (by simp)⟩
  · intro other distinct
    rw [mine, Option.some.injEq]
    exact ⟨fun none => absurd none.symm (by simp), fun same => absurd same.symm distinct⟩

theorem Inv.lock (inv : Inv system) (free : system.mutex = none) {phase : Phase}
    (holds : phase.holds) (silent : phase.waiting = none) (sound : phase.Sound) :
    Inv ({ system with mutex := some thread }.setPhase thread phase) := by
  have before : (system.phases thread).waiting = none := by
    cases view : (system.phases thread).waiting with
    | none => rfl
    | some asked =>
        have held := (inv.holder thread).mp (Phase.holds_of_waiting view)
        rw [free] at held
        cases held
  apply inv.move before silent sound
  · exact ⟨fun _ => rfl, fun _ => holds⟩
  · intro other distinct
    rw [free, Option.some.injEq]
    exact ⟨fun same => absurd same.symm distinct, fun none => absurd none.symm (by simp)⟩

theorem Inv.advance (inv : Inv system) {handler : Handler} (thread : Thread) (allocated : Bool)
    (allocates : Allocates system (.advance thread allocated : Op handler Thread)) :
    Inv (system.advance thread allocated) := by
  rw [System.advance]
  cases phase : system.phases thread with
  | idle => exact inv
  | locking entry cmd =>
      have sound := inv.sound thread
      rw [phase] at sound
      simp only
      split
      · rename_i free
        exact inv.lock free sound.2 rfl ⟨sound.1, fun _ => sound.2⟩
      · exact inv
  | sending entry cmd => exact inv.send_step phase
  | allocatingSnapshot ticket =>
      rw [Allocates, phase] at allocates
      simp only [System.allocateStep, allocates, if_true]
      exact inv.allocate_step (by rw [phase]; rfl) rfl trivial
  | receiving ticket kind => exact inv.receive_step phase
  | allocatingUrl ticket len =>
      have sound := inv.sound thread
      rw [phase] at sound
      rw [Allocates, phase] at allocates
      simp only [System.allocateStep, allocates, if_true]
      exact inv.allocate_step (by rw [phase]; rfl) rfl sound.1
  | receivingUrl ticket len => exact inv.receive_url_step phase
  | unlocking => exact inv.unlock (by rw [phase]; rfl) (by rw [phase]; rfl)
  | polling => exact inv.unlock (by rw [phase]; rfl) (by rw [phase]; rfl)

theorem entry_locks_of_awaits (call : ApiCall) (awaits : call.entry.awaits.isSome) :
    call.entry.locks := by
  cases call <;> first | rfl | cases awaits

theorem Inv.begin_call (inv : Inv system) {handler : Handler} (request : handler.Call)
    (thread : Thread) : Inv (system.beginCall handler thread request.call) := by
  rw [System.beginCall]
  split
  · rename_i cmd phase built
    have answer := answer_kind_of_call request built
    have free : system.mutex ≠ some thread := by
      intro mine
      have held := (inv.holder thread).mpr mine
      rw [phase] at held
      cases held
    apply inv.move (by rw [phase]; rfl)
    · cases request.call.entry.locks <;> rfl
    · cases locks : request.call.entry.locks with
      | true => exact ⟨answer, locks⟩
      | false => exact ⟨answer, entry_locks_of_awaits request.call⟩
    · constructor
      · intro held
        cases locks : request.call.entry.locks <;> simp [locks, Phase.holds] at held
      · exact fun mine => absurd mine free
    · exact fun _ _ => Iff.rfl
  · exact inv

theorem Inv.begin_poll (inv : Inv system) (thread : Thread) :
    Inv (system.beginPoll thread) := by
  rw [System.beginPoll]
  split
  · rename_i free
    exact inv.lock free rfl rfl trivial
  · exact inv

theorem Inv.step (inv : Inv system) {handler : Handler} (op : Op handler Thread)
    (allocates : Allocates system op) : Inv (system.step handler op) := by
  cases op with
  | call thread request => exact inv.begin_call request thread
  | poll thread => exact inv.begin_poll thread
  | advance thread allocated => exact inv.advance thread allocated allocates
  | serve reply => exact inv.serve reply
  | deliver count => exact inv.deliver count

omit [DecidableEq Thread] in
theorem inv_initial : Inv (System.initial : System Thread) where
  well_formed := ⟨List.nodup_nil, fun _ none => absurd none List.not_mem_nil⟩
  holder _ := by simp [System.initial, Phase.holds]
  sound _ := trivial
  quiet _ := ⟨fun _ none => absurd none List.not_mem_nil, rfl⟩
  owed _ _ _ _ view := by cases view
  own_reply _ none := absurd none List.not_mem_nil
  read_once := List.nodup_nil
  accounted _ none := absurd none List.not_mem_nil

omit [DecidableEq Thread] in
theorem Inv.paired (inv : Inv system) : Paired system where
  own_reply := inv.own_reply
  answered_once := (List.nodup_append.mp inv.well_formed.nodup).1
  read_once := inv.read_once
  accounted := inv.accounted
  drained none := List.append_eq_nil_iff.mp (inv.quiet none).2

end Preserved

variable {system : System Thread}

omit [DecidableEq Thread] in
theorem unread_snapshot (reply : Reply) (kind : reply.kind = .snapshot) (ticket : Nat) :
    reply.tagged ticket ≠ [] := by
  cases reply with
  | snapshot bytes size =>
      intro none
      rw [Reply.tagged, Reply.bytes, List.map_eq_nil_iff] at none
      rw [none] at size
      cases size
  | feadback done => cases kind
  | url bytes fits => cases kind

/-- The length alone is the whole reply only when it is zero. -/
theorem unread_url (reply : Reply) (kind : reply.kind = .url) (ticket : Nat)
    {len : List TaggedByte} (size : len.length = 4) (more : wordOf len ≠ 0) :
    len ≠ reply.tagged ticket := by
  cases reply with
  | url bytes fits =>
      intro whole
      have word := word_of_url_reply bytes fits ticket
      have lengths : len.length = (Reply.url bytes fits).bytes.length := by
        rw [whole, Reply.tagged, List.length_map]
      rw [Reply.bytes, List.length_append, encode_word_length, size] at lengths
      have empty : bytes.length = 0 := by omega
      rw [← whole, List.take_of_length_le (Nat.le_of_eq size), empty] at word
      exact more word
  | feadback done => cases kind
  | snapshot bytes length => cases kind

theorem allocate_step_unpaired {thread : Thread} (next : Phase) {ticket : Nat} {kind : ReplyKind}
    {read : List TaggedByte}
    (partly : ∀ reply : Reply, reply.kind = kind → read ≠ reply.tagged ticket) :
    ¬ Paired (system.allocateStep thread false next ⟨ticket, kind, read⟩) := by
  intro paired
  rcases paired.own_reply ⟨ticket, kind, read⟩
    (List.mem_append_right _ (List.mem_singleton_self _)) with ⟨reply, -, fitting, whole⟩
  exact partly reply fitting whole

/-- A call without memory for its reply returns before it has read it. -/
theorem failed_allocation_unpaired {handler : Handler} (inv : Inv system)
    (op : Op handler Thread) (fails : ¬ Allocates system op) :
    ¬ Paired (system.step handler op) := by
  cases op with
  | advance thread allocated =>
      rw [System.step, System.advance]
      cases phase : system.phases thread with
      | allocatingSnapshot ticket =>
          rw [Allocates, phase, Bool.not_eq_true] at fails
          rw [fails]
          apply allocate_step_unpaired
          intro reply kind none
          exact unread_snapshot reply kind ticket none.symm
      | allocatingUrl ticket len =>
          have sound := inv.sound thread
          rw [phase] at sound
          rw [Allocates, phase, Bool.not_eq_true] at fails
          rw [fails]
          apply allocate_step_unpaired
          intro reply kind
          exact unread_url reply kind ticket sound.1 sound.2
      | _ =>
          rw [Allocates, phase] at fails
          exact absurd trivial fails
  | _ => exact absurd trivial fails

/-- For every order of the threads' and the server's steps, each call that waits for a
reply reads exactly the reply to its own command, and nothing is left on the connection
when no call is pending, exactly when no allocation for a reply fails. -/
theorem replies_paired_iff (handler : Handler) (ops : List (Op handler Thread)) :
    AlongRun (System.step handler) Paired System.initial ops ↔
      EveryStep (System.step handler) Allocates System.initial ops := by
  apply along_run_iff_every_step Inv
  · exact fun _ inv => inv.paired
  · exact fun _ op inv allocates => inv.step op allocates
  · exact fun _ op inv fails => failed_allocation_unpaired inv op fails
  · exact inv_initial

end Threads

section Unread

theorem plain_name_ends : (0 : Byte) ∉ [0x6d] := by decide

def plainHandler : Handler := ⟨⟨[0x6d], plain_name_ends⟩, 0⟩

def askSnapshot : plainHandler.Call := ⟨.getsnapshot, by decide⟩

def askVolume : plainHandler.Call := ⟨.volset 30, by decide⟩

/-- A snapshot is asked for and received, while another thread waits for the mutex. -/
theorem snapshot_paired :
    AlongRun (System.step plainHandler) (Paired : System Bool → Prop) System.initial
      [.call true askSnapshot, .advance true true, .call false askVolume, .advance false true,
        .advance true true, .serve (.snapshot (List.replicate 56 7) rfl), .deliver 56,
        .advance true true, .advance true true] := by
  apply (replies_paired_iff plainHandler _).mpr
  exact ⟨trivial, trivial, trivial, trivial, trivial, trivial, trivial, rfl, trivial, trivial⟩

/-- One thread asks for a snapshot and gets no memory for it, then another sets the volume. -/
def snapshotLeft : List (Op plainHandler Bool) :=
  [.call true askSnapshot, .advance true true, .advance true true,
    .serve (.snapshot (List.replicate 56 7) rfl), .deliver 56, .advance true false,
    .advance true true, .call false askVolume, .advance false true, .advance false true,
    .serve (.feadback 1), .deliver 1, .advance false true]

/-- The feedback that the second call reads is the first byte of the snapshot. -/
theorem snapshot_read_as_feedback :
    (run (System.step plainHandler) System.initial snapshotLeft).results =
        [⟨0, .snapshot, []⟩, ⟨1, .feadback, [⟨0, 7⟩]⟩] ∧
      ¬ ∀ ops : List (Op plainHandler Bool),
        AlongRun (System.step plainHandler) Paired System.initial ops := by
  have read : (run (System.step plainHandler) System.initial snapshotLeft).results =
      [⟨0, .snapshot, []⟩, ⟨1, .feadback, [⟨0, 7⟩]⟩] := by rfl
  refine ⟨read, ?_⟩
  intro always
  have paired := (along_run_iff_prefixes _ _).mp (always snapshotLeft) snapshotLeft
    (List.prefix_refl _)
  rcases paired.own_reply ⟨0, .snapshot, []⟩ (by rw [read]; exact List.mem_cons_self) with
    ⟨reply, -, kind, none⟩
  exact unread_snapshot reply kind 0 none.symm

end Unread

end Gk7102.PlayerReplies
