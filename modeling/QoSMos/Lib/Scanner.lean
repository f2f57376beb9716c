import Mathlib.Computability.Language
import Mathlib.Tactic.Common

/-!
# Scanners

Patterns over classes of symbols, and scanners that are lists of them: at each place of a text the
scanner takes the longest match of any of its patterns, and among patterns that match as much the
first.
-/

namespace Scanner

open Computability

/-! ## Patterns -/

/-- A regular expression in which a symbol is given by a class. -/
inductive Pattern (α : Type) where
  | nothing
  | empty
  | one (p : α → Bool)
  | seq (a b : Pattern α)
  | alt (a b : Pattern α)
  | star (a : Pattern α)

namespace Pattern

variable {α : Type} {a b p : Pattern α} {c : α} {w v text : List α} {n m : Nat}

def language : Pattern α → Language α
  | nothing => 0
  | empty => 1
  | one p => {w | ∃ c, p c = true ∧ w = [c]}
  | seq a b => a.language * b.language
  | alt a b => a.language + b.language
  | star a => a.language∗

/-- `a+` -/
def plus (a : Pattern α) : Pattern α := seq a (star a)

/-- `a?` -/
def optional (a : Pattern α) : Pattern α := alt a empty

/-- These symbols, one after the other. -/
def literal [DecidableEq α] (w : List α) : Pattern α :=
  w.foldr (fun c rest => seq (one (c = ·)) rest) empty

/-- `a{n}` -/
def times : Nat → Pattern α → Pattern α
  | 0, _ => empty
  | n + 1, a => seq a (times n a)

/-- `a{n,n+m}` -/
def between (n m : Nat) (a : Pattern α) : Pattern α := seq (times n a) (times m (optional a))

def nullable : Pattern α → Bool
  | nothing => false
  | empty => true
  | one _ => false
  | seq a b => a.nullable && b.nullable
  | alt a b => a.nullable || b.nullable
  | star _ => true

/-- What may follow a symbol. -/
def deriv : Pattern α → α → Pattern α
  | nothing, _ => nothing
  | empty, _ => nothing
  | one p, c => if p c then empty else nothing
  | seq a b, c => if a.nullable then alt (seq (a.deriv c) b) (b.deriv c) else seq (a.deriv c) b
  | alt a b, c => alt (a.deriv c) (b.deriv c)
  | star a, c => seq (a.deriv c) (star a)

theorem mem_one {q : α → Bool} : w ∈ (one q).language ↔ ∃ c, q c = true ∧ w = [c] := Iff.rfl

theorem nil_mem_iff : [] ∈ a.language ↔ a.nullable = true := by
  induction a with
  | nothing => simp [language, nullable]
  | empty => simp [language, nullable]
  | one p =>
    rw [mem_one]
    simp [nullable]
  | seq a b iha ihb => simp [language, nullable, Language.mem_mul, ← iha, ← ihb]
  | alt a b iha ihb =>
    rw [language, Language.mem_add, iha, ihb]
    simp [nullable]
  | star a ih => simp [language, nullable, Language.nil_mem_kstar]

theorem cons_mem_mul {l l' : Language α} : c :: w ∈ l * l' ↔
    (∃ u v, w = u ++ v ∧ c :: u ∈ l ∧ v ∈ l') ∨ [] ∈ l ∧ c :: w ∈ l' := by
  rw [Language.mem_mul]
  constructor
  · rintro ⟨u, hu, v, hv, huv⟩
    cases u with
    | nil => exact .inr ⟨hu, by simpa using huv ▸ hv⟩
    | cons d u =>
      obtain ⟨rfl, rfl⟩ := List.cons.inj huv
      exact .inl ⟨u, v, rfl, hu, hv⟩
  · rintro (⟨u, v, rfl, hu, hv⟩ | ⟨hnil, hw⟩)
    · exact ⟨c :: u, hu, v, hv, rfl⟩
    · exact ⟨[], hnil, c :: w, hw, rfl⟩

theorem cons_mem_kstar {l : Language α} : c :: w ∈ l∗ ↔
    ∃ u v, w = u ++ v ∧ c :: u ∈ l ∧ v ∈ l∗ := by
  rw [Language.mem_kstar_iff_exists_nonempty]
  constructor
  · rintro ⟨parts, hw, hparts⟩
    cases parts with
    | nil => cases hw
    | cons part parts =>
      obtain ⟨hpart, hne⟩ := hparts part List.mem_cons_self
      cases part with
      | nil => exact absurd rfl hne
      | cons d u =>
        obtain ⟨rfl, rfl⟩ := List.cons.inj hw
        refine ⟨u, parts.flatten, rfl, hpart, Language.join_mem_kstar fun y hy => ?_⟩
        exact (hparts y (List.mem_cons_of_mem _ hy)).1
  · rintro ⟨u, v, rfl, hu, hv⟩
    obtain ⟨parts, rfl, hparts⟩ := Language.mem_kstar_iff_exists_nonempty.mp hv
    refine ⟨(c :: u) :: parts, rfl, List.forall_mem_cons.mpr ⟨⟨hu, by simp⟩, hparts⟩⟩

/-- A pattern matches a text if what may follow its first symbol matches the others. -/
theorem mem_deriv_iff : w ∈ (a.deriv c).language ↔ c :: w ∈ a.language := by
  induction a generalizing w with
  | nothing => simp [deriv, language]
  | empty => simp [deriv, language]
  | one q =>
    rw [mem_one]
    unfold deriv
    split
    · rename_i hq
      rw [language, Language.mem_one]
      grind
    · rename_i hq
      simp only [language]
      grind [Language.notMem_zero]
  | seq a b iha ihb =>
    have hnil : [] ∈ a.language ↔ a.nullable = true := nil_mem_iff
    have hseq : w ∈ (seq (a.deriv c) b).language ↔
        ∃ u v, w = u ++ v ∧ c :: u ∈ a.language ∧ v ∈ b.language := by
      rw [language, Language.mem_mul]
      simp only [iha]
      grind
    unfold deriv
    rw [language, cons_mem_mul, hnil]
    split
    · rename_i hnull
      rw [language, Language.mem_add, hseq, ihb]
      simp [hnull]
    · rename_i hnull
      rw [hseq]
      simp [hnull]
  | alt a b iha ihb => simp only [deriv, language, Language.mem_add, iha, ihb]
  | star a ih =>
    simp only [deriv, language, cons_mem_kstar, Language.mem_mul, ih]
    grind

/-! ## Symbols of the matches -/

/-- All symbols of the matches are in a class. -/
def Within (q : α → Prop) : Pattern α → Prop
  | nothing => True
  | empty => True
  | one p => ∀ c, p c = true → q c
  | seq a b => a.Within q ∧ b.Within q
  | alt a b => a.Within q ∧ b.Within q
  | star a => a.Within q

/-- The first symbols of the matches are in a class. -/
def Starts (q : α → Prop) : Pattern α → Prop
  | nothing => True
  | empty => True
  | one p => ∀ c, p c = true → q c
  | seq a b => a.Starts q ∧ (a.nullable = true → b.Starts q)
  | alt a b => a.Starts q ∧ b.Starts q
  | star a => a.Starts q

section Symbols

variable {q : α → Prop}

theorem Within.forall_mem (h : a.Within q) (hw : w ∈ a.language) : ∀ c ∈ w, q c := by
  induction a generalizing w with
  | nothing => exact absurd hw (Language.notMem_zero w)
  | empty =>
    obtain rfl := (Language.mem_one w).mp hw
    exact List.forall_mem_nil q
  | one p =>
    obtain ⟨d, hd, rfl⟩ := hw
    exact List.forall_mem_singleton.mpr (h d hd)
  | seq a b iha ihb =>
    obtain ⟨u, hu, v, hv, rfl⟩ := Language.mem_mul.mp hw
    exact List.forall_mem_append.mpr ⟨iha h.1 hu, ihb h.2 hv⟩
  | alt a b iha ihb =>
    rcases hw with hw | hw
    · exact iha h.1 hw
    · exact ihb h.2 hw
  | star a ih =>
    obtain ⟨parts, rfl, hparts⟩ := Language.mem_kstar.mp hw
    intro c hc
    obtain ⟨part, hpart, hc⟩ := List.mem_flatten.mp hc
    exact ih h (hparts part hpart) c hc

theorem Within.mono {q' : α → Prop} (h : a.Within q) (hq : ∀ c, q c → q' c) : a.Within q' := by
  induction a with
  | nothing => trivial
  | empty => trivial
  | one p => exact fun c hc => hq c (h c hc)
  | seq a b iha ihb => exact ⟨iha h.1, ihb h.2⟩
  | alt a b iha ihb => exact ⟨iha h.1, ihb h.2⟩
  | star a ih => exact ih h

theorem Starts.head (h : a.Starts q) (hw : c :: w ∈ a.language) : q c := by
  induction a generalizing w with
  | nothing => exact absurd hw (Language.notMem_zero _)
  | empty => cases (Language.mem_one _).mp hw
  | one p =>
    obtain ⟨d, hd, hcons⟩ := hw
    exact (List.cons.inj hcons).1 ▸ h d hd
  | seq a b iha ihb =>
    rcases cons_mem_mul.mp hw with ⟨u, v, rfl, hu, _⟩ | ⟨hnil, hw⟩
    · exact iha h.1 hu
    · exact ihb (h.2 (nil_mem_iff.mp hnil)) hw
  | alt a b iha ihb =>
    rcases hw with hw | hw
    · exact iha h.1 hw
    · exact ihb h.2 hw
  | star a ih =>
    obtain ⟨u, v, rfl, hu, _⟩ := cons_mem_kstar.mp hw
    exact ih h hu

end Symbols

/-! ## Composed patterns -/

theorem mem_literal [DecidableEq α] {u : List α} : w ∈ (literal u).language ↔ w = u := by
  induction u generalizing w with
  | nil => exact Language.mem_one w
  | cons c u ih =>
    have hseq : literal (c :: u) = seq (one (c = ·)) (literal u) := rfl
    rw [hseq, language, Language.mem_mul]
    constructor
    · rintro ⟨x, ⟨d, hd, rfl⟩, y, hy, rfl⟩
      rw [ih.mp hy]
      simp_all
    · rintro rfl
      exact ⟨[c], ⟨c, by simp, rfl⟩, u, ih.mpr rfl, rfl⟩

theorem within_literal [DecidableEq α] {q : α → Prop} {u : List α} (h : ∀ c ∈ u, q c) :
    (literal u).Within q := by
  induction u with
  | nil => trivial
  | cons c u ih =>
    obtain ⟨hc, hu⟩ := List.forall_mem_cons.mp h
    exact ⟨fun d hd => of_decide_eq_true hd ▸ hc, ih hu⟩

theorem within_times {q : α → Prop} (h : a.Within q) : (times n a).Within q := by
  induction n with
  | zero => trivial
  | succ n ih => exact ⟨h, ih⟩

theorem within_between {q : α → Prop} (h : a.Within q) : (between n m a).Within q :=
  ⟨within_times h, within_times ⟨h, trivial⟩⟩

theorem mem_seq : w ∈ (seq a b).language ↔ ∃ u v, w = u ++ v ∧ u ∈ a.language ∧ v ∈ b.language := by
  rw [language, Language.mem_mul]
  grind

theorem mem_star_one {q : α → Bool} : w ∈ (star (one q)).language ↔ ∀ c ∈ w, q c = true := by
  constructor
  · exact Within.forall_mem fun _ h => h
  · intro h
    have hflat : w = (w.map fun c => [c]).flatten := by
      clear h
      induction w with
      | nil => rfl
      | cons c w ih => rw [List.map_cons, List.flatten_cons, ← ih, List.singleton_append]
    refine Language.mem_kstar.mpr ⟨w.map fun c => [c], hflat, fun y hy => ?_⟩
    obtain ⟨c, hc, rfl⟩ := List.mem_map.mp hy
    exact ⟨c, h c hc, rfl⟩

theorem mem_plus_one {q : α → Bool} :
    w ∈ (plus (one q)).language ↔ w ≠ [] ∧ ∀ c ∈ w, q c = true := by
  rw [plus, mem_seq]
  constructor
  · rintro ⟨u, v, rfl, ⟨c, hc, rfl⟩, hv⟩
    exact ⟨by simp, List.forall_mem_append.mpr
      ⟨List.forall_mem_singleton.mpr hc, mem_star_one.mp hv⟩⟩
  · rintro ⟨hne, hw⟩
    cases w with
    | nil => exact absurd rfl hne
    | cons c w =>
      obtain ⟨hc, hw⟩ := List.forall_mem_cons.mp hw
      exact ⟨[c], w, rfl, ⟨c, hc, rfl⟩, mem_star_one.mpr hw⟩

/-! ## The longest match -/

/-- The length of the longest match at the start of a text that is not empty. -/
def longest : Pattern α → List α → Option Nat
  | _, [] => none
  | a, c :: text =>
    match (a.deriv c).longest text with
    | some n => some (n + 1)
    | none => if (a.deriv c).nullable then some 1 else none

theorem longest_eq_none (h : a.longest text = none) (hw : w ∈ a.language) (hne : w ≠ []) :
    ¬ w <+: text := by
  induction text generalizing a w with
  | nil => exact fun hpre => hne (List.prefix_nil.mp hpre)
  | cons c text ih =>
    rintro hpre
    cases w with
    | nil => exact hne rfl
    | cons d w =>
      obtain ⟨hd, hrest⟩ := List.cons_prefix_cons.mp hpre
      subst hd
      unfold longest at h
      split at h
      · cases h
      · rename_i hlong
        split at h
        · cases h
        · rename_i hnull
          have hmem := mem_deriv_iff.mpr hw
          cases w with
          | nil => exact hnull (nil_mem_iff.mp hmem)
          | cons e w => exact ih hlong hmem (by simp) hrest

theorem longest_eq_some (h : a.longest text = some n) :
    0 < n ∧ n ≤ text.length ∧ text.take n ∈ a.language ∧
      ∀ w ∈ a.language, w <+: text → w.length ≤ n := by
  induction text generalizing a n with
  | nil => cases h
  | cons c text ih =>
    unfold longest at h
    split at h
    · rename_i m hlong
      cases h
      obtain ⟨_, hle, hmem, hmax⟩ := ih hlong
      refine ⟨Nat.succ_pos m, Nat.succ_le_succ hle, mem_deriv_iff.mp hmem, fun w hw hpre => ?_⟩
      cases w with
      | nil => exact Nat.zero_le _
      | cons d w =>
        obtain ⟨hd, hrest⟩ := List.cons_prefix_cons.mp hpre
        subst hd
        exact Nat.succ_le_succ (hmax w (mem_deriv_iff.mpr hw) hrest)
    · rename_i hlong
      split at h
      · rename_i hnull
        cases h
        refine ⟨Nat.one_pos, by simp, mem_deriv_iff.mp (nil_mem_iff.mpr hnull), fun w hw hpre => ?_⟩
        cases w with
        | nil => exact Nat.zero_le _
        | cons d w =>
          obtain ⟨hd, hrest⟩ := List.cons_prefix_cons.mp hpre
          subst hd
          cases w with
          | nil => exact Nat.le_refl 1
          | cons e w => exact absurd hrest (longest_eq_none hlong (mem_deriv_iff.mpr hw) (by simp))
      · cases h

/-- Where no longer part of the text matches, a match is the longest. -/
theorem longest_of_mem (hw : w ∈ a.language) (hne : w ≠ [])
    (hmax : ∀ v ≠ [], v <+: text → w ++ v ∉ a.language) :
    a.longest (w ++ text) = some w.length := by
  cases h : a.longest (w ++ text) with
  | none => exact absurd (List.prefix_append w text) (longest_eq_none h hw hne)
  | some n =>
    obtain ⟨_, hle, hmem, hlongest⟩ := longest_eq_some h
    have hn : w.length ≤ n := hlongest w hw (List.prefix_append w text)
    have htake : (w ++ text).take n = w ++ text.take (n - w.length) := by
      rw [List.take_append, List.take_of_length_le hn]
    by_contra hdiffer
    rw [htake] at hmem
    rw [List.length_append] at hle
    refine hmax (text.take (n - w.length)) ?_ (List.take_prefix _ _) hmem
    intro hnil
    have hlen := congrArg List.length hnil
    rw [List.length_take, List.length_nil] at hlen
    grind

/-- Where no longer part of the text matches than `w`, the longest match is no longer. -/
theorem longest_le (hmax : ∀ v ≠ [], v <+: text → w ++ v ∉ a.language)
    (h : a.longest (w ++ text) = some n) : n ≤ w.length := by
  obtain ⟨_, hle, hmem, _⟩ := longest_eq_some h
  by_contra hlt
  have htake : (w ++ text).take n = w ++ text.take (n - w.length) := by
    rw [List.take_append, List.take_of_length_le (by omega)]
  rw [htake] at hmem
  rw [List.length_append] at hle
  refine hmax (text.take (n - w.length)) ?_ (List.take_prefix _ _) hmem
  intro hnil
  have hlen := congrArg List.length hnil
  rw [List.length_take, List.length_nil] at hlen
  omega

end Pattern

/-! ## Scanners -/

/-- What is done with a match of a pattern. -/
structure Rule (α β : Type) where
  pattern : Pattern α
  action : List α → β

section Scan

variable {α β : Type} {rules before after : List (Rule α β)} {r q : Rule α β}
  {w text : List α} {n : Nat}

/-- The rule with the longest match, the first one of them, and the length of the match. -/
def best : List (Rule α β) → List α → Option (Nat × Rule α β)
  | [], _ => none
  | r :: rules, text =>
    match r.pattern.longest text, best rules text with
    | some n, some (m, q) => if m ≤ n then some (n, r) else some (m, q)
    | some n, none => some (n, r)
    | none, other => other

/-- The matches one after the other, with what was done. A symbol that no rule matches is passed
over. -/
def scanFor (rules : List (Rule α β)) : Nat → List α → List (List α × Option β)
  | 0, _ => []
  | _ + 1, [] => []
  | fuel + 1, c :: text =>
    match best rules (c :: text) with
    | some (n, r) =>
      let w := (c :: text).take n
      (w, some (r.action w)) :: scanFor rules fuel ((c :: text).drop n)
    | none => ([c], none) :: scanFor rules fuel text

def scan (rules : List (Rule α β)) (text : List α) : List (List α × Option β) :=
  scanFor rules text.length text

theorem best_eq_some (h : best rules text = some (n, r)) :
    r ∈ rules ∧ r.pattern.longest text = some n := by
  induction rules with
  | nil => cases h
  | cons q rules ih =>
    unfold best at h
    split at h
    · rename_i m k s hlong hbest
      split at h
      · cases h
        exact ⟨List.mem_cons_self, hlong⟩
      · cases h
        obtain ⟨hmem, hlong⟩ := ih hbest
        exact ⟨List.mem_cons_of_mem _ hmem, hlong⟩
    · rename_i m hlong hbest
      cases h
      exact ⟨List.mem_cons_self, hlong⟩
    · obtain ⟨hmem, hlong⟩ := ih h
      exact ⟨List.mem_cons_of_mem _ hmem, hlong⟩

/-- A match is the best one if no rule matches more, and none of those in front matches it. -/
theorem best_of_first (hw : w ∈ r.pattern.language) (hne : w ≠ [])
    (hbefore : ∀ q ∈ before, w ∉ q.pattern.language)
    (hmax : ∀ q ∈ before ++ r :: after, ∀ v ≠ [], v <+: text → w ++ v ∉ q.pattern.language) :
    best (before ++ r :: after) (w ++ text) = some (w.length, r) := by
  induction before with
  | nil =>
    have hlong := Pattern.longest_of_mem hw hne (hmax r List.mem_cons_self)
    rw [List.nil_append, best, hlong]
    cases hbest : best after (w ++ text) with
    | none => rfl
    | some found =>
      obtain ⟨m, q⟩ := found
      obtain ⟨hq, hq'⟩ := best_eq_some hbest
      exact if_pos (Pattern.longest_le (hmax q (List.mem_cons_of_mem _ hq)) hq')
  | cons q before ih =>
    obtain ⟨hq, hbefore⟩ := List.forall_mem_cons.mp hbefore
    obtain ⟨hmaxq, hmax⟩ := List.forall_mem_cons.mp hmax
    rw [List.cons_append, best, ih hbefore hmax]
    cases hlong : q.pattern.longest (w ++ text) with
    | none => rfl
    | some m =>
      have hle : m ≤ w.length := Pattern.longest_le hmaxq hlong
      have hmatch : m ≠ w.length := by
        rintro rfl
        have hmem := (Pattern.longest_eq_some hlong).2.2.1
        rw [List.take_left] at hmem
        exact hq hmem
      exact if_neg (by omega)

theorem best_pos (h : best rules text = some (n, r)) : 0 < n :=
  (Pattern.longest_eq_some (best_eq_some h).2).1

/-- More steps than there are symbols are of no use. -/
theorem scanFor_of_le (hn : text.length ≤ n) : scanFor rules n text = scan rules text := by
  unfold scan
  induction n using Nat.strong_induction_on generalizing text with
  | _ n ih =>
    cases text with
    | nil => cases n <;> rfl
    | cons c text =>
      obtain ⟨n, rfl⟩ : ∃ k, n = k + 1 := ⟨n - 1, by simp at hn; omega⟩
      rw [List.length_cons] at hn ⊢
      unfold scanFor
      split
      · rename_i m r hbest
        have hpos : 0 < m := best_pos hbest
        have hdrop : ((c :: text).drop m).length ≤ text.length := by simp; omega
        dsimp only
        rw [ih n (Nat.lt_succ_self n) (hdrop.trans (by omega))]
        rcases Nat.lt_or_ge text.length n with hlt | hge
        · rw [ih text.length (by omega) hdrop]
        · rw [show text.length = n by omega, ih n (Nat.lt_succ_self n) (hdrop.trans (by omega))]
      · rcases Nat.lt_or_ge text.length n with hlt | hge
        · rw [ih n (Nat.lt_succ_self n) (by omega)]
        · rw [show text.length = n by omega]

/-- A scanner goes on behind the best match. -/
theorem scan_of_best (hbest : best rules (w ++ text) = some (w.length, r)) :
    scan rules (w ++ text) = (w, some (r.action w)) :: scan rules text := by
  have hpos : 0 < w.length := best_pos hbest
  cases hcons : w ++ text with
  | nil => simp_all
  | cons c rest =>
    rw [hcons] at hbest
    have hlen := congrArg List.length hcons
    rw [List.length_append, List.length_cons] at hlen
    rw [scan, List.length_cons, scanFor, hbest]
    dsimp only
    rw [← hcons, List.take_left, List.drop_left, scanFor_of_le (by omega)]

end Scan

end Scanner
