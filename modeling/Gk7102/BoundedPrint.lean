import Mathlib.Data.List.Basic

/-!
# Printing in pieces into a bounded buffer

A text is printed piece by piece behind what stands already, and each print is told how much
room is left: it cuts its piece short and ends it with a mark. A room below zero counts as
endless. A piece may be refused for the room that is left, and then nothing more is printed.
-/

namespace Gk7102.BoundedPrint

set_option autoImplicit false

/-- Items that were written from an offset on. -/
structure Put (Item : Type) where
  offset : Nat
  items : List Item
deriving DecidableEq, Repr

structure Piece (Item : Type) where
  text : List Item
  refused : Int → Bool

/-- What was put, and the offset or length reached unless something was refused. -/
abbrev Walk (Item : Type) : Type := List (Put Item) × Option Nat

def Walk.andThen {Item : Type} (walk : Walk Item) (next : Nat → Walk Item) : Walk Item :=
  match walk.2 with
  | none => walk
  | some reached => (walk.1 ++ (next reached).1, (next reached).2)

def Walk.refusal {Item : Type} : Walk Item := ([], none)

variable {Item : Type}

/-- What the last put that reaches a place left there. -/
def found : List (Put Item) → Nat → Option Item
  | [], _ => none
  | put :: later, place =>
      (found later place).or (if put.offset ≤ place then put.items[place - put.offset]? else none)

/-- A piece that there is room for, with its mark, is not refused. -/
def Piece.Lenient (piece : Piece Item) : Prop :=
  ∀ room : Int, piece.refused room = true → room ≤ piece.text.length

def Within (limit : Nat) (puts : List (Put Item)) : Prop :=
  ∀ put ∈ puts, put.offset + put.items.length ≤ limit

variable (mark : Item)

/-- What one print leaves, its mark included. -/
def printed (room : Int) (text : List Item) : List Item :=
  if room = 0 then []
  else if room < 0 then text ++ [mark]
  else text.take (room.toNat - 1) ++ [mark]

def printPieces (limit : Nat) : Nat → List (Piece Item) → Walk Item
  | offset, [] => ([], some offset)
  | offset, piece :: rest =>
      if piece.refused ((limit : Int) - offset) then .refusal
      else
        let later := printPieces limit (offset + piece.text.length) rest
        (⟨offset, printed mark ((limit : Int) - offset) piece.text⟩ :: later.1, later.2)

def wholeText (pieces : List (Piece Item)) : List Item := pieces.flatMap Piece.text

/-- A piece is refused, and none before it starts behind the limit. -/
def turnedAway (limit : Nat) : Nat → List (Piece Item) → Bool
  | _, [] => false
  | offset, piece :: rest =>
      piece.refused ((limit : Int) - offset) ||
        (decide (offset ≤ limit) && turnedAway limit (offset + piece.text.length) rest)

section Rooms

theorem printed_of_fit {room : Int} {text : List Item} (fit : (text.length : Int) < room) :
    printed mark room text = text ++ [mark] := by
  rw [printed, if_neg (by omega), if_neg (by omega), List.take_of_length_le (by omega)]

theorem printed_of_room {room : Nat} (text : List Item) (positive : 0 < room) :
    printed mark room text = text.take (room - 1) ++ [mark] := by
  rw [printed, if_neg (by omega), if_neg (by omega), Int.toNat_natCast]

theorem printed_length_le (room : Nat) (text : List Item) :
    (printed mark room text).length ≤ room := by
  rcases Nat.eq_zero_or_pos room with rfl | positive
  · exact Nat.le_refl 0
  · rw [printed_of_room mark text positive, List.length_append, List.length_take,
      List.length_singleton]
    omega

/-- A print stays within the limit exactly when it does not start behind it. -/
theorem printed_within_iff {limit offset : Nat} (text : List Item) :
    offset + (printed mark ((limit : Int) - offset) text).length ≤ limit ↔ offset ≤ limit := by
  constructor
  · exact fun within => Nat.le_trans (Nat.le_add_right _ _) within
  · intro before
    have short := printed_length_le mark (limit - offset) text
    rw [show (limit : Int) - offset = ((limit - offset : Nat) : Int) by omega]
    omega

/-- Behind a text with room to spare, the second of two prints goes on where the first one put
its mark. -/
theorem printed_append {room : Nat} (first second : List Item) (fit : first.length < room) :
    printed mark room (first ++ second) =
      first ++ printed mark ((room - first.length : Nat) : Int) second := by
  rw [printed_of_room mark _ (by omega), printed_of_room mark _ (by omega), List.take_append,
    List.take_of_length_le (by omega), List.append_assoc,
    show room - 1 - first.length = room - first.length - 1 by omega]

/-- A text that fills the room leaves nothing for another one. -/
theorem printed_append_full (first second : List Item) :
    printed mark (first.length : Int) (first ++ second) =
      printed mark (first.length : Int) first := by
  rcases Nat.eq_zero_or_pos first.length with zero | positive
  · rw [zero]
    rfl
  · rw [printed_of_room mark _ positive, printed_of_room mark _ positive,
      List.take_append_of_le_length (by omega)]

end Rooms

section Walks

theorem print_pieces_refused {limit offset : Nat} {piece : Piece Item} (rest : List (Piece Item))
    (refused : piece.refused ((limit : Int) - offset) = true) :
    printPieces mark limit offset (piece :: rest) = .refusal := by
  rw [printPieces, if_pos refused]

theorem print_pieces_cons {limit offset : Nat} {piece : Piece Item} (rest : List (Piece Item))
    (accepted : ¬ piece.refused ((limit : Int) - offset) = true) :
    printPieces mark limit offset (piece :: rest) =
      Walk.andThen ([⟨offset, printed mark ((limit : Int) - offset) piece.text⟩],
        some (offset + piece.text.length)) fun reached => printPieces mark limit reached rest := by
  rw [printPieces, if_neg accepted]
  rfl

theorem and_then_assoc (walk : Walk Item) (next later : Nat → Walk Item) :
    (walk.andThen next).andThen later = walk.andThen fun reached =>
      (next reached).andThen later := by
  obtain ⟨puts, reached⟩ := walk
  cases reached with
  | none => rfl
  | some reached =>
      simp only [Walk.andThen]
      split <;> simp

theorem print_append (limit offset : Nat) (front back : List (Piece Item)) :
    printPieces mark limit offset (front ++ back) =
      (printPieces mark limit offset front).andThen fun reached =>
        printPieces mark limit reached back := by
  induction front generalizing offset with
  | nil => simp [printPieces, Walk.andThen]
  | cons piece rest ih =>
      by_cases refused : piece.refused ((limit : Int) - offset) = true
      · rw [List.cons_append, print_pieces_refused mark _ refused,
          print_pieces_refused mark _ refused]
        rfl
      · rw [List.cons_append, print_pieces_cons mark _ refused, print_pieces_cons mark _ refused,
          and_then_assoc]
        simp only [ih]

end Walks

section Places

theorem within_cons {limit : Nat} {put : Put Item} {later : List (Put Item)} :
    Within limit (put :: later) ↔ put.offset + put.items.length ≤ limit ∧ Within limit later :=
  List.forall_mem_cons

theorem found_cons (offset : Nat) (items : List Item) (later : List (Put Item)) (place : Nat) :
    found (⟨offset, items⟩ :: later) place =
      (found later place).or (if offset ≤ place then items[place - offset]? else none) :=
  rfl

theorem found_single (offset : Nat) (items : List Item) (place : Nat) :
    found [⟨offset, items⟩] place =
      if offset ≤ place then items[place - offset]? else none := by
  rw [found_cons, found, Option.none_or]

theorem found_start_inj {first second : List Item}
    (same : found [⟨0, first⟩] = found [⟨0, second⟩]) : first = second := by
  apply List.ext_getElem?
  intro place
  have here := congrFun same place
  rwa [found_single, found_single, if_pos (Nat.zero_le _), if_pos (Nat.zero_le _),
    Nat.sub_zero] at here

/-- Of a put whose end was put again, the front is left. -/
theorem found_overlap (offset : Nat) (front back items : List Item)
    (covered : back.length ≤ items.length) {later : List (Put Item)}
    (behind : found later = found [⟨offset + front.length, items⟩]) :
    found (⟨offset, front ++ back⟩ :: later) = found [⟨offset, front ++ items⟩] := by
  funext place
  rw [found_cons, behind, found_single, found_single]
  by_cases past : offset + front.length ≤ place
  · rw [if_pos past, if_pos (by omega), if_pos (by omega), List.getElem?_append_right (by omega),
      List.getElem?_append_right (by omega), Nat.sub_sub]
    cases there : items[place - (offset + front.length)]? with
    | some item => rfl
    | none =>
        have outside := List.getElem?_eq_none_iff.mp there
        rw [List.getElem?_eq_none (by omega), Option.none_or]
  · rw [if_neg past, Option.none_or]
    split
    · rw [List.getElem?_append_left (by omega), List.getElem?_append_left (by omega)]
    · rfl

end Places

section Runs

variable {limit : Nat}

theorem print_fits {pieces : List (Piece Item)}
    (lenient : ∀ piece ∈ pieces, piece.Lenient)
    (offset : Nat) (room : offset + (wholeText pieces).length < limit) :
    (printPieces mark limit offset pieces).2 = some (offset + (wholeText pieces).length) ∧
      Within limit (printPieces mark limit offset pieces).1 := by
  induction pieces generalizing offset with
  | nil => exact ⟨rfl, fun put inside => absurd inside List.not_mem_nil⟩
  | cons piece rest ih =>
      rw [wholeText, List.flatMap_cons, List.length_append] at room ⊢
      have accepted : ¬ piece.refused ((limit : Int) - offset) = true := by
        intro refused
        have little := lenient piece List.mem_cons_self _ refused
        omega
      obtain ⟨returned, within⟩ :=
        ih (fun other inside => lenient other (List.mem_cons_of_mem piece inside))
          (offset + piece.text.length) (by rw [wholeText]; omega)
      rw [printPieces, if_neg accepted]
      constructor
      · rw [returned, wholeText, Nat.add_assoc]
      · have before : offset ≤ limit := by omega
        apply within_cons.mpr
        exact ⟨(printed_within_iff mark piece.text).mpr before, within⟩

/-- Pieces turned away end the printing before it leaves the buffer. -/
theorem print_turned_away {pieces : List (Piece Item)} {offset : Nat}
    (away : turnedAway limit offset pieces = true) :
    (printPieces mark limit offset pieces).2 = none ∧
      Within limit (printPieces mark limit offset pieces).1 := by
  induction pieces generalizing offset with
  | nil => simp [turnedAway] at away
  | cons piece rest ih =>
      rw [printPieces]
      split
      · exact ⟨rfl, fun put inside => absurd inside List.not_mem_nil⟩
      · rename_i accepted
        simp only [turnedAway, Bool.or_eq_true, Bool.and_eq_true, decide_eq_true_eq] at away
        obtain ⟨before, rest_away⟩ := away.resolve_left accepted
        obtain ⟨returned, within⟩ := ih rest_away
        refine ⟨returned, ?_⟩
        apply within_cons.mpr
        exact ⟨(printed_within_iff mark piece.text).mpr before, within⟩

/-- Otherwise, if all is put within the limit, nothing was refused. -/
theorem print_accepted {pieces : List (Piece Item)} {offset : Nat}
    (kept : ¬ turnedAway limit offset pieces = true)
    (within : Within limit (printPieces mark limit offset pieces).1) :
    (printPieces mark limit offset pieces).2 = some (offset + (wholeText pieces).length) := by
  induction pieces generalizing offset with
  | nil => rfl
  | cons piece rest ih =>
      simp only [turnedAway, Bool.or_eq_true, Bool.and_eq_true, decide_eq_true_eq,
        not_or] at kept
      rw [printPieces, if_neg kept.1] at within ⊢
      obtain ⟨here, later⟩ := within_cons.mp within
      have before := (printed_within_iff mark piece.text).mp here
      rw [ih (fun away => kept.2 ⟨before, away⟩) later, wholeText, wholeText, List.flatMap_cons,
        List.length_append, Nat.add_assoc]

theorem found_print_append {offset : Nat} {first second : List Item} {later : List (Put Item)}
    (before : offset + first.length ≤ limit)
    (behind : found later = found [⟨offset + first.length,
      printed mark ((limit : Int) - (offset + first.length : Nat)) second⟩]) :
    found (⟨offset, printed mark ((limit : Int) - offset) first⟩ :: later) =
      found [⟨offset, printed mark ((limit : Int) - offset) (first ++ second)⟩] := by
  have room : (limit : Int) - offset = ((limit - offset : Nat) : Int) := by omega
  rcases Nat.lt_or_eq_of_le before with fit | full
  · have left_over : (limit : Int) - (offset + first.length : Nat) =
        ((limit - offset - first.length : Nat) : Int) := by omega
    rw [left_over] at behind
    rw [room, printed_append mark first second (by omega), printed_of_fit mark (by omega)]
    apply found_overlap offset first [mark] _ _ behind
    rw [printed_of_room mark second (by omega), List.length_append]
    exact Nat.le_add_left _ _
  · have nothing : found later = found [⟨offset + first.length, []⟩] := by
      rw [behind, full, Int.sub_self]
      rfl
    have all : limit - offset = first.length := by omega
    rw [room, all, printed_append_full]
    funext place
    rw [found_cons, nothing, found_single, found_single, List.getElem?_nil, ite_self, Option.none_or]

theorem print_found {pieces : List (Piece Item)} (some_piece : pieces ≠ []) {offset last : Nat}
    (returned : (printPieces mark limit offset pieces).2 = some last)
    (within : Within limit (printPieces mark limit offset pieces).1) :
    found (printPieces mark limit offset pieces).1 =
      found [⟨offset, printed mark ((limit : Int) - offset) (wholeText pieces)⟩] := by
  induction pieces generalizing offset with
  | nil => exact absurd rfl some_piece
  | cons piece rest ih =>
      rw [printPieces] at returned within ⊢
      split at returned
      · cases returned
      · rename_i accepted
        rw [if_neg accepted] at within ⊢
        obtain ⟨here, later⟩ := within_cons.mp within
        cases rest with
        | nil => simp only [printPieces, wholeText, List.flatMap_cons, List.flatMap_nil,
            List.append_nil]
        | cons next others =>
            have behind := ih (List.cons_ne_nil next others) returned later
            apply found_print_append mark _ behind
            rw [printPieces] at later returned
            split at returned
            · cases returned
            · rename_i also
              rw [if_neg also] at later
              exact (printed_within_iff mark next.text).mp (within_cons.mp later).1

end Runs

/-- A walk that stays within the limit and, unless it refuses a piece, leaves the target. -/
structure PrintSound (limit : Nat) (target : List Item)
    (walk : Walk Item) : Prop where
  within : Within limit walk.1
  same : ∀ last, walk.2 = some last → found walk.1 = found [⟨0, target ++ [mark]⟩]

/-- It does so exactly when the target is what is printed and fits with its mark, or a piece
is turned away. -/
theorem print_sound_iff {limit : Nat} {target : List Item} {pieces : List (Piece Item)}
    (some_piece : pieces ≠ [])
    (lenient : ∀ piece ∈ pieces, piece.Lenient)
    (comparable : target <+: wholeText pieces → target = wholeText pieces) :
    PrintSound mark limit target (printPieces mark limit 0 pieces) ↔
      (wholeText pieces = target ∧ target.length < limit) ∨
        turnedAway limit 0 pieces = true := by
  constructor
  · intro sound
    by_cases away : turnedAway limit 0 pieces = true
    · exact Or.inr away
    · left
      have returned := print_accepted mark away sound.within
      have left_there := print_found mark some_piece returned sound.within
      have whole := found_start_inj (left_there.symm.trans (sound.same _ returned))
      rcases Nat.eq_zero_or_pos limit with rfl | positive
      · simp [printed] at whole
      · rw [show (limit : Int) - ((0 : Nat) : Int) = (limit : Int) by omega,
          printed_of_room mark _ positive] at whole
        have cut := List.append_cancel_right whole
        have equal := comparable (cut ▸ List.take_prefix (limit - 1) (wholeText pieces))
        refine ⟨equal.symm, ?_⟩
        rw [← cut, List.length_take]
        omega
  · rintro (⟨rfl, room⟩ | away)
    · obtain ⟨returned, within⟩ := print_fits mark lenient 0 (by rwa [Nat.zero_add])
      refine ⟨within, fun last _ => ?_⟩
      rw [print_found mark some_piece returned within, printed_of_fit mark (by omega)]
    · obtain ⟨returned, within⟩ := print_turned_away mark away
      refine ⟨within, fun last done => ?_⟩
      rw [returned] at done
      cases done

end Gk7102.BoundedPrint
