import Mathlib.Data.List.Forall2
import Mathlib.Logic.Relation
import QoSMos.Lib.Returns

/-!
# Evaluation in postorder

A tree is given by the children of its nodes. A program that evaluates a node by evaluating its
children in order, up to the first that fails, and then combining their values, succeeds exactly
if every node of the tree can be combined; otherwise it fails at the first node that cannot.
-/

namespace Postorder

open Returns

variable {α β ε : Type} {children : α → List α} {combine : α → List β → Except ε β}
  {eval : α → Except ε β} {P Q : α → Prop} {e n : α} {l : List α} {vs : List β} {x : ε}

/-! ## Trees -/

/-- The node `n` is `e`, or below it. -/
def Inside (children : α → List α) (n e : α) : Prop :=
  Relation.ReflTransGen (fun d c => c ∈ children d) e n

/-- Every node of `e` is a `P`. -/
def Everywhere (children : α → List α) (P : α → Prop) (e : α) : Prop :=
  ∀ n, Inside children n e → P n

theorem everywhere_iff :
    Everywhere children P e ↔ P e ∧ ∀ c ∈ children e, Everywhere children P c := by
  constructor
  · intro h
    exact ⟨h e .refl, fun c hc n hn => h n (.head hc hn)⟩
  · rintro ⟨he, hbelow⟩ n hn
    rcases hn.cases_head with rfl | ⟨c, hc, hn⟩
    · exact he
    · exact hbelow c hc n hn

/-- Of the nodes of `e` that are no `P`, the first in postorder is a `Q`. -/
inductive FirstFault (children : α → List α) (P Q : α → Prop) : α → Prop
  | here {e : α} (hbelow : ∀ c ∈ children e, Everywhere children P c) (hfault : Q e) :
      FirstFault children P Q e
  | inner {e c : α} {before after : List α} (hsplit : children e = before ++ c :: after)
      (hbefore : ∀ d ∈ before, Everywhere children P d) (hfault : FirstFault children P Q c) :
      FirstFault children P Q e

/-- The same for trees that are evaluated one after the other. -/
def FirstFaultIn (children : α → List α) (P Q : α → Prop) (l : List α) : Prop :=
  ∃ before c after, l = before ++ c :: after ∧ (∀ d ∈ before, Everywhere children P d) ∧
    FirstFault children P Q c

/-! ## Lists of programs -/

theorem mapM_eq_ok_iff : l.mapM eval = .ok vs ↔ List.Forall₂ (fun c v => eval c = .ok v) l vs := by
  induction l generalizing vs with
  | nil => cases vs <;> simp [pure_eq_ok_iff]
  | cons c l ih =>
    rw [List.mapM_cons, bind_eq_ok_iff]
    constructor
    · rintro ⟨v, hv, hrest⟩
      obtain ⟨us, hus, hrest⟩ := bind_eq_ok_iff.mp hrest
      obtain rfl := pure_eq_ok_iff.mp hrest
      exact .cons hv (ih.mp hus)
    · rintro (_ | ⟨hv, hus⟩)
      exact ⟨_, hv, bind_eq_ok_iff.mpr ⟨_, ih.mpr hus, rfl⟩⟩

theorem exists_mapM_eq_ok_iff : (∃ vs, l.mapM eval = .ok vs) ↔ ∀ c ∈ l, ∃ v, eval c = .ok v := by
  constructor
  · rintro ⟨vs, hvs⟩ c hc
    have hall := mapM_eq_ok_iff.mp hvs
    induction hall with
    | nil => cases hc
    | cons hv _ ih =>
      rcases List.mem_cons.mp hc with rfl | hc
      · exact ⟨_, hv⟩
      · exact ih (mapM_eq_ok_iff.mpr ‹_›) hc
  · intro h
    induction l with
    | nil => exact ⟨[], rfl⟩
    | cons c l ih =>
      obtain ⟨v, hv⟩ := h c List.mem_cons_self
      obtain ⟨vs, hvs⟩ := ih fun d hd => h d (List.mem_cons_of_mem _ hd)
      exact ⟨v :: vs, mapM_eq_ok_iff.mpr (.cons hv (mapM_eq_ok_iff.mp hvs))⟩

theorem forall₂_congr_of_mem {R S : α → β → Prop} (h : ∀ c ∈ l, ∀ v, R c v ↔ S c v) :
    List.Forall₂ R l vs ↔ List.Forall₂ S l vs := by
  induction l generalizing vs with
  | nil => cases vs <;> simp
  | cons c l ih =>
    have hrest : ∀ vs, List.Forall₂ R l vs ↔ List.Forall₂ S l vs := fun _ =>
      ih fun d hd => h d (List.mem_cons_of_mem _ hd)
    cases vs with
    | nil => simp
    | cons v vs => simp only [List.forall₂_cons, h c List.mem_cons_self, hrest]

/-- The list fails with its first program that fails. -/
theorem mapM_eq_error_iff : l.mapM eval = .error x ↔ ∃ before c after, l = before ++ c :: after ∧
    (∀ d ∈ before, ∃ v, eval d = .ok v) ∧ eval c = .error x := by
  induction l with
  | nil => simp [pure, Except.pure]
  | cons c l ih =>
    cases hc : eval c with
    | error y =>
      have hfail : (c :: l).mapM eval = .error y := by
        rw [List.mapM_cons, hc]
        rfl
      rw [hfail]
      constructor
      · intro h
        exact ⟨[], c, l, rfl, by simp, hc.trans (by rw [Except.error.inj h])⟩
      · rintro ⟨_ | ⟨d, before⟩, c', after, hsplit, hbefore, hfault⟩
        · obtain ⟨rfl, rfl⟩ := List.cons.inj hsplit
          rw [Except.error.inj (hc.symm.trans hfault)]
        · obtain ⟨rfl, -⟩ := List.cons.inj hsplit
          obtain ⟨v, hv⟩ := hbefore c List.mem_cons_self
          cases hc.symm.trans hv
    | ok v =>
      have hrest : (c :: l).mapM eval = .error x ↔ l.mapM eval = .error x := by
        rw [List.mapM_cons, hc]
        cases hl : l.mapM eval <;> simp [bind, Except.bind, pure, Except.pure]
      rw [hrest, ih]
      constructor
      · rintro ⟨before, d, after, rfl, hbefore, hfault⟩
        exact ⟨c :: before, d, after, rfl, by simpa using ⟨⟨v, hc⟩, hbefore⟩, hfault⟩
      · rintro ⟨_ | ⟨d, before⟩, c', after, hsplit, hbefore, hfault⟩
        · obtain ⟨rfl, -⟩ := List.cons.inj hsplit
          cases hc.symm.trans hfault
        · obtain ⟨-, hsplit⟩ := List.cons.inj hsplit
          exact ⟨before, c', after, hsplit, fun d hd => hbefore d (List.mem_cons_of_mem _ hd),
            hfault⟩

/-! ## Programs on trees -/

/-- `eval` evaluates trees of finite depth in postorder. -/
structure Evaluates (children : α → List α) (combine : α → List β → Except ε β)
    (eval : α → Except ε β) : Prop where
  wf : WellFounded fun c e => c ∈ children e
  step : ∀ e, eval e = (children e).mapM eval >>= combine e

/-- The values of its children can be combined for a node exactly if the node is a `P`. -/
def CombinesIf (children : α → List α) (combine : α → List β → Except ε β) (eval : α → Except ε β)
    (P : α → Prop) : Prop :=
  ∀ e vs, (children e).mapM eval = .ok vs → ((∃ v, combine e vs = .ok v) ↔ P e)

/-- The combination fails with `x` exactly for the `Q`. -/
def FailsIf (children : α → List α) (combine : α → List β → Except ε β) (eval : α → Except ε β)
    (x : ε) (Q : α → Prop) : Prop :=
  ∀ e vs, (children e).mapM eval = .ok vs → (combine e vs = .error x ↔ Q e)

/-- A tree is evaluated exactly if every node of it is a `P`. -/
theorem Evaluates.exists_ok_iff (h : Evaluates children combine eval)
    (hP : CombinesIf children combine eval P) :
    (∃ v, eval e = .ok v) ↔ Everywhere children P e := by
  induction e using h.wf.induction with
  | _ e ih =>
    have hchildren : (∃ vs, (children e).mapM eval = .ok vs) ↔
        ∀ c ∈ children e, Everywhere children P c := by
      rw [exists_mapM_eq_ok_iff]
      exact forall₂_congr ih
    rw [everywhere_iff, ← hchildren, h.step]
    constructor
    · rintro ⟨v, hv⟩
      obtain ⟨vs, hvs, hv⟩ := bind_eq_ok_iff.mp hv
      exact ⟨(hP e vs hvs).mp ⟨v, hv⟩, vs, hvs⟩
    · rintro ⟨he, vs, hvs⟩
      obtain ⟨v, hv⟩ := (hP e vs hvs).mpr he
      exact ⟨v, bind_eq_ok_iff.mpr ⟨vs, hvs, hv⟩⟩

/-- It fails with the error of the first node that is no `P`. -/
theorem Evaluates.error_iff (h : Evaluates children combine eval)
    (hP : CombinesIf children combine eval P) (hQ : FailsIf children combine eval x Q) :
    eval e = .error x ↔ FirstFault children P Q e := by
  induction e using h.wf.induction with
  | _ e ih =>
    rw [h.step]
    cases hvs : (children e).mapM eval with
    | ok vs =>
      have hall : ∀ c ∈ children e, Everywhere children P c := fun c hc =>
        (h.exists_ok_iff hP).mp (exists_mapM_eq_ok_iff.mp ⟨vs, hvs⟩ c hc)
      have hcombine : (Except.ok vs >>= combine e) = combine e vs := rfl
      rw [hcombine, hQ e vs hvs]
      constructor
      · exact .here hall
      · rintro (⟨-, hfault⟩ | ⟨hsplit, -, hfault⟩)
        · exact hfault
        · have hc := hsplit ▸ List.mem_append_right _ List.mem_cons_self
          obtain ⟨v, hv⟩ := (h.exists_ok_iff hP).mpr (hall _ hc)
          cases hv.symm.trans ((ih _ hc).mpr hfault)
    | error y =>
      have hfail : ((Except.error y : Except ε (List β)) >>= combine e) = .error y := rfl
      rw [hfail]
      constructor
      · intro hyx
        obtain rfl := Except.error.inj hyx
        obtain ⟨before, c, after, hsplit, hbefore, hfault⟩ := mapM_eq_error_iff.mp hvs
        have hc : c ∈ children e := hsplit ▸ List.mem_append_right _ List.mem_cons_self
        exact .inner hsplit (fun d hd => (h.exists_ok_iff hP).mp (hbefore d hd))
          ((ih c hc).mp hfault)
      · rintro (⟨hbelow, -⟩ | ⟨hsplit, hbefore, hfault⟩)
        · obtain ⟨vs, hok⟩ := exists_mapM_eq_ok_iff.mpr fun c hc =>
            (h.exists_ok_iff hP).mpr (hbelow c hc)
          cases hvs.symm.trans hok
        · have hc := hsplit ▸ List.mem_append_right _ List.mem_cons_self
          have herror : (children e).mapM eval = .error x := mapM_eq_error_iff.mpr
            ⟨_, _, _, hsplit, fun d hd => (h.exists_ok_iff hP).mpr (hbefore d hd),
              (ih _ hc).mpr hfault⟩
          rw [Except.error.inj (hvs.symm.trans herror)]

/-- The same for a list of trees. -/
theorem Evaluates.mapM_error_iff (h : Evaluates children combine eval)
    (hP : CombinesIf children combine eval P) (hQ : FailsIf children combine eval x Q) :
    l.mapM eval = .error x ↔ FirstFaultIn children P Q l := by
  simp only [mapM_eq_error_iff, FirstFaultIn, h.exists_ok_iff hP, h.error_iff hP hQ]

theorem Evaluates.exists_mapM_ok_iff (h : Evaluates children combine eval)
    (hP : CombinesIf children combine eval P) :
    (∃ vs, l.mapM eval = .ok vs) ↔ ∀ e ∈ l, Everywhere children P e := by
  simp only [exists_mapM_eq_ok_iff, h.exists_ok_iff hP]

end Postorder
