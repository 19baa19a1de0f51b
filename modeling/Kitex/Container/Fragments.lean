import Mathlib.Data.List.Forall2

/-! # Fragmenting marked messages

A sender cuts each message into pieces at boundaries of its own choosing and
puts the message's end mark on the piece that finishes it. The relations below
say what a sequence of pieces carries: whole messages, and the beginning of one
more.
-/

namespace Kitex.Container

universe u

variable {α : Type u}

/-- A sequence with an end mark. Messages and the pieces that carry them have
the same shape. -/
structure Piece (α : Type u) where
  content : List α
  last : Bool
  deriving DecidableEq, Repr

/-- The content of a sequence of pieces, put together again. -/
def contents (pieces : List (Piece α)) : List α :=
  pieces.flatMap Piece.content

@[simp] theorem contents_nil : contents ([] : List (Piece α)) = [] := rfl

@[simp] theorem contents_append (first second : List (Piece α)) :
    contents (first ++ second) = contents first ++ contents second :=
  List.flatMap_append

@[simp] theorem contents_cons (piece : Piece α) (pieces : List (Piece α)) :
    contents (piece :: pieces) = piece.content ++ contents pieces := rfl

/-- Unmarked pieces carry everything of the message but `rest`. -/
def Begins (message : Piece α) (pieces : List (Piece α)) (rest : List α) : Prop :=
  (∀ piece ∈ pieces, piece.last = false) ∧ contents pieces ++ rest = message.content

/-- The pieces carry exactly the message, and its end mark stands on the last
of them and on no other. -/
def Completes (message : Piece α) (pieces : List (Piece α)) : Prop :=
  ∃ front final, pieces = front ++ [final] ∧ (∀ piece ∈ front, piece.last = false) ∧
    final.last = message.last ∧ contents pieces = message.content

/-- The pieces carry the messages one after the other, all of them to the end. -/
def Carries (messages pieces : List (Piece α)) : Prop :=
  ∃ groups, List.Forall₂ Completes messages groups ∧ pieces = groups.flatten

theorem Begins.nil (message : Piece α) : Begins message [] message.content :=
  ⟨by simp, rfl⟩

variable {message : Piece α} {pieces messages queue todo : List (Piece α)} {part rest : List α}

theorem Begins.piece (hbegins : Begins message pieces (part ++ rest)) :
    Begins message (pieces ++ [⟨part, false⟩]) rest := by
  refine ⟨?_, ?_⟩
  · intro piece hpiece
    rcases List.mem_append.mp hpiece with hpiece | hpiece
    · exact hbegins.1 piece hpiece
    · rw [List.mem_singleton.mp hpiece]
  · simpa using hbegins.2

theorem Begins.finish (hbegins : Begins message pieces rest) :
    Completes message (pieces ++ [⟨rest, message.last⟩]) :=
  ⟨pieces, ⟨rest, message.last⟩, rfl, hbegins.1, rfl, by simpa using hbegins.2⟩

theorem Carries.nil : Carries ([] : List (Piece α)) [] :=
  ⟨[], .nil, rfl⟩

theorem Carries.append_message {group : List (Piece α)} (hcarries : Carries messages pieces)
    (hgroup : Completes message group) : Carries (messages ++ [message]) (pieces ++ group) := by
  obtain ⟨groups, hall, rfl⟩ := hcarries
  exact ⟨groups ++ [group], List.rel_append hall (.cons hgroup .nil), by simp⟩

theorem Carries.contents_eq (hcarries : Carries messages pieces) :
    contents pieces = contents messages := by
  obtain ⟨groups, hall, rfl⟩ := hcarries
  induction hall with
  | nil => rfl
  | cons hgroup _ ih =>
    obtain ⟨_, _, _, _, _, hcontent⟩ := hgroup
    rw [List.flatten_cons, contents_append, hcontent, ih, contents_cons]

/-- A queue of messages that is being sent: some of its messages are finished,
at most one is begun, and `todo` is what remains of the others. -/
def InFlight (queue pieces todo : List (Piece α)) : Prop :=
  ∃ finished rest whole begun, queue = finished ++ rest ∧ pieces = whole ++ begun ∧
    Carries finished whole ∧
    (begun = [] ∧ todo = rest ∨
      ∃ message more left, rest = message :: more ∧ todo = ⟨left, message.last⟩ :: more ∧
        Begins message begun left ∧ left ≠ [])

theorem InFlight.nil : InFlight ([] : List (Piece α)) [] [] :=
  ⟨[], [], [], [], rfl, rfl, .nil, .inl ⟨rfl, rfl⟩⟩

theorem InFlight.enqueue (hflight : InFlight queue pieces todo) (added : List (Piece α)) :
    InFlight (queue ++ added) pieces (todo ++ added) := by
  obtain ⟨finished, rest, whole, begun, rfl, rfl, hcarries, hrest⟩ := hflight
  refine ⟨finished, rest ++ added, whole, begun, by simp, rfl, hcarries, ?_⟩
  rcases hrest with ⟨hbegun, rfl⟩ | ⟨message, more, left, rfl, rfl, hbegins, hleft⟩
  · exact .inl ⟨hbegun, rfl⟩
  · exact .inr ⟨message, more ++ added, left, rfl, rfl, hbegins, hleft⟩

/-- Sending a part of the first message, with something left of it. -/
theorem InFlight.sendPart {left : List α} {last : Bool}
    (hflight : InFlight queue pieces (⟨part ++ left, last⟩ :: todo)) (hleft : left ≠ []) :
    InFlight queue (pieces ++ [⟨part, false⟩]) (⟨left, last⟩ :: todo) := by
  obtain ⟨finished, rest, whole, begun, rfl, rfl, hcarries, hrest⟩ := hflight
  rcases hrest with ⟨rfl, rfl⟩ | ⟨message, more, old, rfl, heq, hbegins, -⟩
  · refine ⟨finished, _, whole, [⟨part, false⟩], rfl, by simp, hcarries,
      .inr ⟨_, _, left, rfl, rfl, ?_, hleft⟩⟩
    exact (Begins.nil ⟨part ++ left, last⟩).piece
  · obtain ⟨hmessage, rfl⟩ := List.cons.inj heq
    obtain ⟨rfl, rfl⟩ := (Piece.mk.injEq _ _ _ _).mp hmessage
    exact ⟨finished, _, whole, begun ++ [⟨part, false⟩], rfl, by simp, hcarries,
      .inr ⟨message, todo, left, rfl, rfl, hbegins.piece, hleft⟩⟩

/-- Sending all that remains of the first message, under its end mark. -/
theorem InFlight.sendRest {piece : Piece α} (hflight : InFlight queue pieces (piece :: todo)) :
    InFlight queue (pieces ++ [piece]) todo := by
  obtain ⟨finished, rest, whole, begun, rfl, rfl, hcarries, hrest⟩ := hflight
  rcases hrest with ⟨rfl, rfl⟩ | ⟨message, more, left, rfl, heq, hbegins, -⟩
  · refine ⟨finished ++ [piece], todo, whole ++ [piece], [], by simp, by simp,
      hcarries.append_message ?_, .inl ⟨rfl, rfl⟩⟩
    exact (Begins.nil piece).finish
  · obtain ⟨rfl, rfl⟩ := List.cons.inj heq
    exact ⟨finished ++ [message], todo, whole ++ (begun ++ [⟨left, message.last⟩]), [],
      by simp, by simp, hcarries.append_message hbegins.finish, .inl ⟨rfl, rfl⟩⟩

/-- What has been sent and what is left make up the queue. -/
theorem InFlight.contents_eq (hflight : InFlight queue pieces todo) :
    contents pieces ++ contents todo = contents queue := by
  obtain ⟨finished, rest, whole, begun, rfl, rfl, hcarries, hrest⟩ := hflight
  rw [contents_append, contents_append, hcarries.contents_eq, List.append_assoc]
  rcases hrest with ⟨rfl, rfl⟩ | ⟨message, more, left, rfl, rfl, hbegins, -⟩
  · simp
  · rw [contents_cons, contents_cons, ← hbegins.2, List.append_assoc]

end Kitex.Container
