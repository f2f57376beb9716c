import Mathlib.Data.List.TakeDrop
import Mathlib.Order.Nat

/-!
# Dialogues

Two parties that have agreed on the order of all messages between them: a list that says who sends
each one. Each party goes through the list by itself; it sends what is its own and receives the
rest, over two queues. Then a message is always the one that is expected, and a party that has to
wait is not behind the other one.
-/

namespace Dialogue

open Function

inductive Side where
  | left | right
  deriving DecidableEq, Repr

def Side.other : Side → Side
  | left => right
  | right => left

@[simp] theorem Side.other_other (a : Side) : a.other.other = a := by cases a <;> rfl

theorem Side.ne_other (a : Side) : a ≠ a.other := by cases a <;> simp [Side.other]

theorem Side.eq_or_other (a b : Side) : b = a ∨ b = a.other := by
  cases a <;> cases b <;> simp [Side.other]

variable {M : Type*} {talk : List (Side × M)} {pos : Side → Nat} {queue : Side → List M}
  {a : Side} {m m' : M} {rest : List M}

/-- The part of the dialogue from one position to another. -/
def span (talk : List (Side × M)) (i j : Nat) : List (Side × M) := (talk.take j).drop i

theorem span_of_le {i j : Nat} (h : j ≤ i) : span talk i j = [] := by
  rw [span, List.drop_eq_nil_iff]
  exact (List.length_take_le _ _).trans h

theorem span_succ_right {i j : Nat} {e : Side × M} (hij : i ≤ j) (he : talk[j]? = some e) :
    span talk i (j + 1) = span talk i j ++ [e] := by
  obtain ⟨hj, rfl⟩ := List.getElem?_eq_some_iff.mp he
  rw [span, span, List.take_succ_eq_append_getElem hj, List.drop_append_of_le_length]
  rw [List.length_take]
  omega

theorem span_succ_left {i j : Nat} {e : Side × M} (hij : i < j) (he : talk[i]? = some e) :
    span talk i j = e :: span talk (i + 1) j := by
  obtain ⟨hi, rfl⟩ := List.getElem?_eq_some_iff.mp he
  have hlt : i < (talk.take j).length := by
    rw [List.length_take]
    omega
  rw [span, List.drop_eq_getElem_cons hlt, List.getElem_take]
  rfl

/-- The messages to a party are those between its position and that of the other, who has sent all
of them. -/
structure Inv (talk : List (Side × M)) (pos : Side → Nat) (queue : Side → List M) : Prop where
  queue : ∀ a, queue a = (span talk (pos a) (pos a.other)).map Prod.snd
  sender : ∀ a, ∀ e ∈ span talk (pos a) (pos a.other), e.1 = a.other

theorem inv_start (talk : List (Side × M)) : Inv talk (fun _ => 0) (fun _ => []) := by
  constructor <;> simp [span]

namespace Inv

/-- A party that sends is not behind the other one. -/
theorem not_behind (h : Inv talk pos queue) (he : talk[pos a]? = some (a, m)) :
    pos a.other ≤ pos a := by
  by_contra hlt
  have hspan := span_succ_left (not_le.mp hlt) he
  have hsender := h.sender a (a, m) (hspan ▸ List.mem_cons_self)
  exact a.ne_other hsender

/-- A party that has to receive what is there receives the message that is meant. -/
theorem received (h : Inv talk pos queue) (he : talk[pos a]? = some (a.other, m))
    (hqueue : queue a = m' :: rest) :
    m' = m ∧ pos a < pos a.other ∧ rest = (span talk (pos a + 1) (pos a.other)).map Prod.snd := by
  rw [h.queue a] at hqueue
  have hlt : pos a < pos a.other := by
    by_contra hle
    rw [span_of_le (not_lt.mp hle)] at hqueue
    cases hqueue
  rw [span_succ_left hlt he, List.map_cons, List.cons.injEq] at hqueue
  exact ⟨hqueue.1.symm, hlt, hqueue.2.symm⟩

theorem send (h : Inv talk pos queue) (he : talk[pos a]? = some (a, m)) :
    Inv talk (update pos a (pos a + 1)) (update queue a.other (queue a.other ++ [m])) := by
  have hle := h.not_behind he
  have hne := a.ne_other
  have hto : update pos a (pos a + 1) a.other = pos a.other := update_of_ne hne.symm _ _
  have hspan := span_succ_right hle he
  constructor
  · intro b
    obtain rfl | rfl := Side.eq_or_other a b
    · rw [update_of_ne hne, hto, update_self, span_of_le (hle.trans (Nat.le_succ _)), h.queue,
        span_of_le hle]
    · rw [update_self, hto, Side.other_other, update_self, hspan, h.queue, Side.other_other,
        List.map_append]
      rfl
  · intro b e hmem
    obtain rfl | rfl := Side.eq_or_other a b
    · rw [hto, update_self, span_of_le (hle.trans (Nat.le_succ _))] at hmem
      cases hmem
    · rw [hto, Side.other_other, update_self, hspan, List.mem_append, List.mem_singleton] at hmem
      rcases hmem with hmem | rfl
      · exact h.sender a.other e (by rwa [Side.other_other])
      · rw [Side.other_other]

theorem receive (h : Inv talk pos queue) (he : talk[pos a]? = some (a.other, m))
    (hqueue : queue a = m' :: rest) :
    Inv talk (update pos a (pos a + 1)) (update queue a rest) := by
  obtain ⟨-, hlt, hrest⟩ := h.received he hqueue
  have hne := a.ne_other
  have hto : update pos a (pos a + 1) a.other = pos a.other := update_of_ne hne.symm _ _
  have hspan := span_succ_left hlt he
  constructor
  · intro b
    obtain rfl | rfl := Side.eq_or_other a b
    · rw [update_self, update_self, hto, hrest]
    · rw [update_of_ne hne.symm, hto, Side.other_other, update_self, span_of_le hlt, h.queue,
        Side.other_other, span_of_le hlt.le]
  · intro b e hmem
    obtain rfl | rfl := Side.eq_or_other a b
    · rw [update_self, hto] at hmem
      exact h.sender b e (hspan ▸ List.mem_cons_of_mem _ hmem)
    · rw [hto, Side.other_other, update_self, span_of_le hlt] at hmem
      cases hmem

/-- A party for which there is no message is not behind the other one. -/
theorem not_behind_of_empty (h : Inv talk pos queue) (hqueue : queue a = [])
    (hlt : pos a < talk.length) : pos a.other ≤ pos a := by
  by_contra hbehind
  rw [h.queue a, span_succ_left (not_le.mp hbehind) (List.getElem?_eq_getElem hlt)] at hqueue
  cases hqueue

/-- A party that is behind a message of its own has not been overtaken. -/
theorem not_overtaken {i : Nat} (h : Inv talk pos queue) (he : talk[i]? = some (a, m))
    (hi : i < pos a.other) : i < pos a := by
  by_contra hle
  have hlt : i < talk.length := (List.getElem?_eq_some_iff.mp he).1
  have hmem : (a, m) ∈ span talk (pos a) (pos a.other) := by
    rw [span, List.mem_iff_getElem?]
    refine ⟨i - pos a, ?_⟩
    rw [List.getElem?_drop, List.getElem?_take, if_pos (by omega)]
    rw [Nat.add_sub_of_le (not_lt.mp hle), he]
  exact a.ne_other (h.sender a _ hmem)

end Inv

end Dialogue
