import Mathlib
import QoSMos.Script.Lexer

/-!
# The rules of the lexer

What the patterns of the lexer have in common: which characters they are made of, which ones they
start with, and that an IPv6 address has two colons side by side or seven of them. From it, where a
lexeme without a colon ends.
-/

namespace QoSMos.Lexer

open Scanner Pattern

/-! ## Characters -/

/-- The characters of all lexemes but strings and snippets. -/
def isPlain (c : Char) : Bool := isWordChar c || c = '#' || c = '.' || c = '-' || c = ':'

section Chars

variable {c : Char}

theorem isWordChar_of_isHexDigit (h : isHexDigit c = true) : isWordChar c = true := by
  simp only [isHexDigit, isWordChar, Char.isAlphanum, Char.isAlpha, Char.isUpper, Char.isLower,
    Bool.or_eq_true, Bool.and_eq_true, decide_eq_true_eq, Char.le_def] at *
  grind

theorem isWordChar_of_isDigit (h : isDigit c = true) : isWordChar c = true := by
  simp only [isDigit, isWordChar, Char.isAlphanum] at *
  simp [h]

theorem isPlain_of_isWordChar (h : isWordChar c = true) : isPlain c = true := by
  simp [isPlain, h]

theorem ne_colon_of_isWordChar (h : isWordChar c = true) : c ≠ ':' := by
  rintro rfl
  exact absurd h (by decide)

end Chars

/-! ## Colons -/

/-- There are two colons side by side, or seven of them. -/
def HasColons (w : List Char) : Prop := [':', ':'] <:+: w ∨ 7 ≤ w.count ':'

section Colons

variable {w u v : List Char} {n m : Nat}

theorem HasColons.mono (h : HasColons u) (hpart : u <:+: w) : HasColons w :=
  h.imp (fun htwo => htwo.trans hpart) fun hseven => hseven.trans (hpart.sublist.count_le _)

theorem HasColons.of_append (hw : ':' ∉ w) (h : HasColons (w ++ v)) : HasColons v := by
  rcases h with ⟨s, t, htwo⟩ | hseven
  · refine .inl ?_
    induction w generalizing s with
    | nil => exact ⟨s, t, htwo⟩
    | cons c w ih =>
      cases s with
      | nil => grind
      | cons d s =>
        rw [List.mem_cons, not_or] at hw
        refine ih hw.2 s ?_
        simpa using (List.cons.inj htwo).2
  · refine .inr ?_
    rwa [List.count_append, List.count_eq_zero_of_not_mem hw, Nat.zero_add] at hseven

theorem mem_char {c : Char} : w ∈ (char c).language ↔ w = [c] := by
  rw [char, mem_one]
  simp

theorem mem_segColon (h : w ∈ segColon.language) : ∃ u, w = u ++ [':'] := by
  obtain ⟨u, v, rfl, _, hv⟩ := mem_seq.mp h
  exact ⟨u, by rw [mem_char.mp hv]⟩

theorem mem_colonSeg (h : w ∈ colonSeg.language) : ∃ u, w = ':' :: u := by
  obtain ⟨u, v, rfl, hu, _⟩ := mem_seq.mp h
  exact ⟨v, by rw [mem_char.mp hu, List.singleton_append]⟩

/-- Empty, or with a colon at its end. -/
theorem mem_times_optional (h : w ∈ (times n (optional segColon)).language) :
    w = [] ∨ ∃ u, w = u ++ [':'] := by
  induction n generalizing w with
  | zero => exact .inl ((Language.mem_one w).mp h)
  | succ n ih =>
    obtain ⟨u, v, rfl, hu, hv⟩ := mem_seq.mp h
    rcases ih hv with rfl | ⟨v, rfl⟩
    · rcases hu with hu | hu
      · obtain ⟨u, rfl⟩ := mem_segColon hu
        exact .inr ⟨u, List.append_nil _⟩
      · exact .inl (by rw [(Language.mem_one u).mp hu, List.append_nil])
    · exact .inr ⟨u ++ v, (List.append_assoc ..).symm⟩

theorem mem_times_segColon (h : w ∈ (times (n + 1) segColon).language) : ∃ u, w = u ++ [':'] := by
  induction n generalizing w with
  | zero =>
    obtain ⟨u, v, rfl, hu, hv⟩ := mem_seq.mp h
    obtain ⟨u, rfl⟩ := mem_segColon hu
    exact ⟨u, by rw [(Language.mem_one v).mp hv, List.append_nil]⟩
  | succ n ih =>
    obtain ⟨u, v, rfl, _, hv⟩ := mem_seq.mp h
    obtain ⟨v, rfl⟩ := ih hv
    exact ⟨u ++ v, (List.append_assoc ..).symm⟩

theorem mem_between_segColon (h : w ∈ (between (n + 1) m segColon).language) :
    ∃ u, w = u ++ [':'] := by
  obtain ⟨u, v, rfl, hu, hv⟩ := mem_seq.mp h
  rcases mem_times_optional hv with rfl | ⟨v, rfl⟩
  · rw [List.append_nil]
    exact mem_times_segColon hu
  · exact ⟨u ++ v, (List.append_assoc ..).symm⟩

theorem mem_between_colonSeg (h : w ∈ (between (n + 1) m colonSeg).language) :
    ∃ u, w = ':' :: u := by
  obtain ⟨u, v, rfl, hu, _⟩ := mem_seq.mp h
  obtain ⟨x, y, rfl, hx, _⟩ := mem_seq.mp hu
  obtain ⟨x, rfl⟩ := mem_colonSeg hx
  exact ⟨x ++ y ++ v, rfl⟩

theorem mem_seq_char {c : Char} {a : Pattern Char} (h : w ∈ (seq (char c) a).language) :
    ∃ u ∈ a.language, w = c :: u := by
  obtain ⟨u, v, rfl, hu, hv⟩ := mem_seq.mp h
  exact ⟨v, hv, by rw [mem_char.mp hu, List.singleton_append]⟩

theorem count_times_segColon (h : w ∈ (times n segColon).language) : n ≤ w.count ':' := by
  induction n generalizing w with
  | zero => exact Nat.zero_le _
  | succ n ih =>
    obtain ⟨u, v, rfl, hu, hv⟩ := mem_seq.mp h
    obtain ⟨u, rfl⟩ := mem_segColon hu
    have hn := ih hv
    rw [List.count_append, List.count_append, List.count_singleton_self]
    omega

theorem hasColons_meet (u v : List Char) : HasColons (u ++ [':'] ++ ':' :: v) :=
  .inl ⟨u, v, by simp⟩

/-- An address starts with two colons, or has a colon and none at its start. -/
theorem mem_ipv6Addr (h : w ∈ ipv6Addr.language) :
    HasColons w ∧ ∀ v, w = ':' :: v → ∃ u, v = ':' :: u := by
  have hfirst {a b : Pattern Char} (hstart : a.Starts (fun c => c ≠ ':'))
      (hnull : a.nullable = false) (h : w ∈ (seq a b).language) :
      ∀ v, w = ':' :: v → ∃ u, v = ':' :: u := by
    rintro v rfl
    have hseq : (seq a b).Starts (fun c => c ≠ ':') := ⟨hstart, by simp [hnull]⟩
    exact absurd rfl (hseq.head h)
  have hhex : ∀ c, isHexDigit c = true → c ≠ ':' := fun c hc =>
    ne_colon_of_isWordChar (isWordChar_of_isHexDigit hc)
  have hnull : segColon.nullable = false := rfl
  have hseg : segColon.Starts (fun c => c ≠ ':') :=
    ⟨⟨⟨hhex, by simp [nullable]⟩, by simp [nullable, times]⟩,
      by simp [nullable, seg, between, times]⟩
  have htimes (n : Nat) : (times (n + 1) segColon).Starts (fun c => c ≠ ':') :=
    ⟨hseg, by simp [hnull]⟩
  have hbetween (n m : Nat) : (between (n + 1) m segColon).Starts (fun c => c ≠ ':') :=
    ⟨htimes n, by simp [times, nullable, hnull]⟩
  have hmeet {a b : Pattern Char} (ha : ∀ u ∈ a.language, ∃ x, u = x ++ [':'])
      (hb : ∀ u ∈ b.language, ∃ x, u = ':' :: x) (h : w ∈ (seq a b).language) : HasColons w := by
    obtain ⟨u, v, rfl, hu, hv⟩ := mem_seq.mp h
    obtain ⟨u, rfl⟩ := ha u hu
    obtain ⟨v, rfl⟩ := hb v hv
    exact hasColons_meet u v
  have hcolon : ∀ u ∈ (char ':').language, ∃ x, u = ':' :: x := fun u hu => ⟨[], mem_char.mp hu⟩
  have hcolonSeq (a : Pattern Char) : ∀ u ∈ (seq (char ':') a).language, ∃ x, u = ':' :: x :=
    fun u hu => (mem_seq_char hu).imp fun _ => And.right
  have htwo (a : Pattern Char) (hb : ∀ u ∈ a.language, ∃ x, u = ':' :: x)
      (h : w ∈ (seq (char ':') a).language) :
      HasColons w ∧ ∀ v, w = ':' :: v → ∃ u, v = ':' :: u := by
    obtain ⟨u, hu, rfl⟩ := mem_seq_char h
    obtain ⟨u, rfl⟩ := hb u hu
    refine ⟨hasColons_meet [] u, ?_⟩
    rintro v hv
    exact ⟨u, (List.cons.inj hv).2.symm⟩
  simp only [ipv6Addr, List.foldr_cons, List.foldr_nil] at h
  rcases h with h | h | h | h | h | h | h | h | h | h | h | h | h | h
  · exact htwo _ hcolon h
  · refine ⟨?_, hfirst (htimes 6) rfl h⟩
    obtain ⟨u, v, rfl, hu, _⟩ := mem_seq.mp h
    refine .inr ?_
    rw [List.count_append]
    exact Nat.le_add_right_of_le (count_times_segColon hu)
  · exact ⟨hmeet (fun _ => mem_between_segColon) hcolon h, hfirst (hbetween 0 6) rfl h⟩
  · exact ⟨hmeet (fun _ => mem_between_segColon) (hcolonSeq _) h, hfirst (hbetween 0 5) rfl h⟩
  · exact ⟨hmeet (fun _ => mem_between_segColon) (fun _ => mem_between_colonSeg) h,
      hfirst (hbetween 0 4) rfl h⟩
  · exact ⟨hmeet (fun _ => mem_between_segColon) (fun _ => mem_between_colonSeg) h,
      hfirst (hbetween 0 3) rfl h⟩
  · exact ⟨hmeet (fun _ => mem_between_segColon) (fun _ => mem_between_colonSeg) h,
      hfirst (hbetween 0 2) rfl h⟩
  · exact ⟨hmeet (fun _ => mem_between_segColon) (fun _ => mem_between_colonSeg) h,
      hfirst (hbetween 0 1) rfl h⟩
  · exact ⟨hmeet (fun _ => mem_segColon) (fun _ => mem_between_colonSeg) h, hfirst hseg rfl h⟩
  · exact htwo _ (fun _ => mem_between_colonSeg) h
  · exact htwo _ (hcolonSeq _) h
  · exact htwo _ (hcolonSeq _) h
  · exact ⟨hmeet (fun _ => mem_between_segColon) (hcolonSeq _) h, hfirst (hbetween 0 3) rfl h⟩
  · exact absurd h (Language.notMem_zero w)

end Colons

/-! ## Rules -/

section Rules

variable {defines : List Configuration.Definition} {q : Rule Char (Option Token)}
  {w v rest : List Char} {c : Char}

/-- The characters of the lexemes that are not IPv6 addresses. -/
def Simple (c : Char) : Prop := isPlain c = true ∧ c ≠ ':'

theorem simple_of_isWordChar (h : isWordChar c = true) : Simple c :=
  ⟨isPlain_of_isWordChar h, ne_colon_of_isWordChar h⟩

theorem simple_of_isDigit (h : isDigit c = true) : Simple c :=
  simple_of_isWordChar (isWordChar_of_isDigit h)

theorem within_char {p : Char → Prop} (h : p c) : (char c).Within p :=
  fun _ hd => of_decide_eq_true hd ▸ h

theorem within_optionPattern : optionPattern.Within Simple :=
  ⟨within_char ⟨by decide, by decide⟩, within_char ⟨by decide, by decide⟩,
    fun _ => simple_of_isWordChar, fun _ => simple_of_isWordChar⟩

theorem within_floatPattern : floatPattern.Within Simple :=
  ⟨⟨within_char ⟨by decide, by decide⟩, trivial⟩, fun _ => simple_of_isDigit,
    within_char ⟨by decide, by decide⟩, fun _ => simple_of_isDigit, fun _ => simple_of_isDigit⟩

theorem within_integerPattern : integerPattern.Within Simple :=
  ⟨⟨within_char ⟨by decide, by decide⟩, trivial⟩, fun _ => simple_of_isDigit,
    fun _ => simple_of_isDigit⟩

theorem within_hexPattern : hexPattern.Within Simple :=
  ⟨within_char ⟨by decide, by decide⟩, within_char ⟨by decide, by decide⟩,
    fun _ h => simple_of_isWordChar (isWordChar_of_isHexDigit h),
    fun _ h => simple_of_isWordChar (isWordChar_of_isHexDigit h)⟩

theorem within_wordPattern : wordPattern.Within Simple :=
  ⟨fun _ => simple_of_isWordChar, fun _ => simple_of_isWordChar⟩

theorem within_ipv4Addr : ipv4Addr.Within Simple := by
  have hnumber : (plus (one isDigit)).Within Simple :=
    ⟨fun _ => simple_of_isDigit, fun _ => simple_of_isDigit⟩
  have hdot : (char '.').Within Simple := within_char ⟨by decide, by decide⟩
  exact ⟨hnumber, hdot, hnumber, hdot, hnumber, hdot, hnumber⟩

/-- What is said of the text of a keyword. -/
def isKeywordText (text : List Char) : Bool :=
  text.all (fun c => isPlain c && c ≠ ':') &&
    (text.head?.any Char.isAlpha || text == ['.', '.', '.'])

theorem isKeywordText_of_mem {k : String × Keyword} (hk : k ∈ keywords) :
    isKeywordText k.1.toList = true :=
  List.all_eq_true.mp (by decide +kernel : keywords.all (fun k => isKeywordText k.1.toList) = true)
    k hk

theorem starts_quotedPattern (h : isPlain c = false) :
    (quotedPattern c).Starts (fun c => isPlain c = false) :=
  ⟨fun d hd => of_decide_eq_true hd ▸ h, fun hnull => by cases hnull⟩

theorem starts_delimited {a b x y : Char} (h : isPlain a = false) :
    (delimited a b x y).Starts (fun c => isPlain c = false) :=
  ⟨fun d hd => of_decide_eq_true hd ▸ h, fun hnull => by cases hnull⟩

theorem isPlain_of_isBlank (h : isBlank c = true) : isPlain c = false := by
  simp only [isBlank, Bool.or_eq_true, decide_eq_true_eq] at h
  rcases h with (rfl | rfl) | rfl <;> decide

/-- The rules up to the one for words are for simple characters. -/
theorem within_front (hq : q ∈ keywordRules ++ numberRules ++ [wordRule defines]) :
    q.pattern.Within Simple := by
  rcases List.mem_append.mp hq with hq | hq
  · rcases List.mem_append.mp hq with hq | hq
    · obtain ⟨k, hk, rfl⟩ := List.mem_map.mp hq
      have htext := isKeywordText_of_mem hk
      simp only [isKeywordText, Bool.and_eq_true, List.all_eq_true, decide_eq_true_eq] at htext
      exact within_literal htext.1
    · simp only [numberRules, List.mem_cons, List.not_mem_nil, or_false] at hq
      rcases hq with rfl | rfl | rfl | rfl
      · exact within_optionPattern
      · exact within_floatPattern
      · exact within_integerPattern
      · exact within_hexPattern
  · obtain rfl := List.mem_singleton.mp hq
    exact within_wordPattern

theorem rules_eq :
    rules defines = keywordRules ++ numberRules ++ [wordRule defines] ++ otherRules := by
  simp [rules]

/-- A rule is for simple characters, for IPv6 addresses, for something that does not start with a
plain character, or for one character. -/
theorem rule_cases (hq : q ∈ rules defines) :
    q.pattern.Within Simple ∨ q.pattern = ipv6Addr ∨
      q.pattern.Starts (fun c => isPlain c = false) ∨ q.pattern = one (fun c => !isBlank c) := by
  rw [rules_eq] at hq
  rcases List.mem_append.mp hq with hq | hq
  · exact .inl (within_front hq)
  · simp only [otherRules, List.mem_cons, List.not_mem_nil, or_false] at hq
    rcases hq with rfl | rfl | rfl | rfl | rfl | rfl | rfl | rfl | rfl
    · exact .inr (.inr (.inl (starts_quotedPattern (by decide))))
    · exact .inr (.inr (.inl (starts_quotedPattern (by decide))))
    · exact .inr (.inr (.inr rfl))
    · exact .inr (.inr (.inl ⟨fun _ => isPlain_of_isBlank, fun hnull => by cases hnull⟩))
    · exact .inr (.inr (.inl ⟨within_char (by decide), fun hnull => by cases hnull⟩))
    · exact .inr (.inr (.inl (starts_delimited (by decide))))
    · exact .inr (.inr (.inl (starts_delimited (by decide))))
    · exact .inl within_ipv4Addr
    · exact .inr (.inl rfl)

/-- What may stand behind a lexeme that has no colon: something that is not plain, or a colon where
the plain characters from there on are no IPv6 address. -/
def Ends (rest : List Char) : Prop :=
  ∀ c ∈ rest.head?, isPlain c = false ∨ c = ':' ∧ ¬ HasColons (rest.takeWhile isPlain)

theorem prefix_takeWhile {p : Char → Bool} (hpre : v <+: rest) (hv : ∀ c ∈ v, p c = true) :
    v <+: rest.takeWhile p := by
  obtain ⟨t, rfl⟩ := hpre
  rw [List.takeWhile_append_of_pos hv]
  exact List.prefix_append _ _

theorem within_ipv6Addr : ipv6Addr.Within (fun c => isPlain c = true) := by
  have hhex : ∀ c, isHexDigit c = true → isPlain c = true := fun c hc =>
    isPlain_of_isWordChar (isWordChar_of_isHexDigit hc)
  have hcolon : (char ':').Within (fun c => isPlain c = true) := within_char (by decide)
  have hseg : seg.Within (fun c => isPlain c = true) := within_between hhex
  have hsegColon : segColon.Within (fun c => isPlain c = true) := ⟨hseg, hcolon⟩
  have hsegColons (n m : Nat) : (between n m segColon).Within (fun c => isPlain c = true) :=
    within_between hsegColon
  have hcolonSegs (n m : Nat) : (between n m colonSeg).Within (fun c => isPlain c = true) :=
    within_between ⟨hcolon, hseg⟩
  have hipv4 : ipv4Addr.Within (fun c => isPlain c = true) := within_ipv4Addr.mono fun _ h => h.1
  have hffff : (literal ['f', 'f', 'f', 'f']).Within (fun c => isPlain c = true) :=
    within_literal (by simp [show isPlain 'f' = true by decide])
  have hzeros : (between 1 3 (char '0')).Within (fun c => isPlain c = true) :=
    within_between (within_char (by decide))
  exact ⟨⟨hcolon, hcolon⟩, ⟨within_times hsegColon, hseg⟩, ⟨hsegColons _ _, hcolon⟩,
    ⟨hsegColons _ _, hcolon, hseg⟩, ⟨hsegColons _ _, hcolonSegs _ _⟩,
    ⟨hsegColons _ _, hcolonSegs _ _⟩, ⟨hsegColons _ _, hcolonSegs _ _⟩,
    ⟨hsegColons _ _, hcolonSegs _ _⟩, ⟨hsegColon, hcolonSegs _ _⟩, ⟨hcolon, hcolonSegs _ _⟩,
    ⟨hcolon, hcolon, hffff, hcolon, hipv4⟩, ⟨hcolon, hcolon, hffff, hcolon, hzeros, hcolon, hipv4⟩,
    ⟨hsegColons _ _, hcolon, hipv4⟩, trivial⟩

/-- No rule matches more than a lexeme that is simple. -/
theorem no_extension (hw : ∀ c ∈ w, Simple c) (hne : w ≠ []) (hends : Ends rest)
    (hq : q ∈ rules defines) (hv : v ≠ []) (hpre : v <+: rest) : w ++ v ∉ q.pattern.language := by
  intro hmem
  obtain ⟨d, u, rfl⟩ := List.exists_cons_of_ne_nil hv
  have hhead : rest.head? = some d := by
    obtain ⟨t, rfl⟩ := hpre
    rfl
  have hd := hends d hhead
  obtain ⟨e, w, rfl⟩ := List.exists_cons_of_ne_nil hne
  rcases rule_cases hq with hwithin | hipv6 | hstarts | hone
  · have hsimple := hwithin.forall_mem hmem d (by simp)
    rcases hd with hplain | ⟨rfl, _⟩
    · exact absurd (hsimple.1.symm.trans hplain) (by decide)
    · exact hsimple.2 rfl
  · rw [hipv6] at hmem
    have hplain := within_ipv6Addr.forall_mem hmem
    rcases hd with hd | ⟨rfl, hcolons⟩
    · exact absurd ((hplain d (by simp)).symm.trans hd) (by decide)
    · have hfound := (mem_ipv6Addr hmem).1.of_append fun hcolon => (hw _ hcolon).2 rfl
      refine hcolons (hfound.mono (prefix_takeWhile hpre fun c hc => ?_).isInfix)
      exact hplain c (List.mem_append_right _ hc)
  · have hplain : isPlain e = false := hstarts.head hmem
    exact absurd ((hw e List.mem_cons_self).1.symm.trans hplain) (by decide)
  · rw [hone] at hmem
    obtain ⟨c, _, hcons⟩ := hmem
    simp at hcons

theorem front_excludes (hc : isPlain c = false)
    (hq : q ∈ keywordRules ++ numberRules ++ [wordRule defines]) : c :: w ∉ q.pattern.language := by
  intro hmem
  have hsimple := (within_front hq).forall_mem hmem c List.mem_cons_self
  exact absurd (hsimple.1.symm.trans hc) (by decide)

/-- What starts with a character that is not plain is matched by few rules. -/
theorem open_cases (hc : isPlain c = false) (hq : q ∈ rules defines)
    (hmem : c :: w ∈ q.pattern.language) :
    (q.pattern = quotedPattern c ∧ (c = '"' ∨ c = '`')) ∨ w = [] ∨
      (q.pattern = plus (one isBlank) ∧ isBlank c = true) ∨
      ((q.pattern = cppComment ∨ q.pattern = cComment) ∧ c = '/') ∨
      (q.pattern = codePattern ∧ c = '%') := by
  rw [rules_eq] at hq
  rcases List.mem_append.mp hq with hq | hq
  · exact absurd hmem (front_excludes hc hq)
  · simp only [otherRules, List.mem_cons, List.not_mem_nil, or_false] at hq
    rcases hq with rfl | rfl | rfl | rfl | rfl | rfl | rfl | rfl | rfl
    · obtain ⟨u, _, hcons⟩ := mem_seq_char hmem
      obtain ⟨rfl, _⟩ := List.cons.inj hcons
      exact .inl ⟨rfl, .inl rfl⟩
    · obtain ⟨u, _, hcons⟩ := mem_seq_char hmem
      obtain ⟨rfl, _⟩ := List.cons.inj hcons
      exact .inl ⟨rfl, .inr rfl⟩
    · obtain ⟨d, _, hcons⟩ := hmem
      exact .inr (.inl (List.cons.inj hcons).2)
    · exact .inr (.inr (.inl ⟨rfl, (mem_plus_one.mp hmem).2 c List.mem_cons_self⟩))
    · obtain ⟨u, _, hcons⟩ := mem_seq_char hmem
      exact .inr (.inr (.inr (.inl ⟨.inl rfl, (List.cons.inj hcons).1⟩)))
    · obtain ⟨u, _, hcons⟩ := mem_seq_char hmem
      exact .inr (.inr (.inr (.inl ⟨.inr rfl, (List.cons.inj hcons).1⟩)))
    · obtain ⟨u, _, hcons⟩ := mem_seq_char hmem
      exact .inr (.inr (.inr (.inr ⟨rfl, (List.cons.inj hcons).1⟩)))
    · have hsimple := within_ipv4Addr.forall_mem hmem c List.mem_cons_self
      exact absurd (hsimple.1.symm.trans hc) (by decide)
    · have hplain := within_ipv6Addr.forall_mem hmem c List.mem_cons_self
      exact absurd (hplain.symm.trans hc) (by decide)

end Rules

/-! ## Steps -/

/-- The lexer takes `w` in front of the rest of a text, with this result. -/
def Takes (defines : List Configuration.Definition) (w rest : List Char) (result : Option Token) :
    Prop :=
  ∃ r, best (rules defines) (w ++ rest) = some (w.length, r) ∧ r.action w = result

section Steps

variable {defines : List Configuration.Definition} {before after : List (Rule Char (Option Token))}
  {r : Rule Char (Option Token)} {w rest : List Char} {token : Token} {result : Option Token}
  {line : Nat}

theorem Takes.of_split (hrules : rules defines = before ++ r :: after)
    (hw : w ∈ r.pattern.language) (hne : w ≠ [])
    (hbefore : ∀ q ∈ before, w ∉ q.pattern.language)
    (hext : ∀ q ∈ rules defines, ∀ v ≠ [], v <+: rest → w ++ v ∉ q.pattern.language) :
    Takes defines w rest (r.action w) := by
  refine ⟨r, ?_, rfl⟩
  rw [hrules] at hext ⊢
  exact best_of_first hw hne hbefore hext

theorem Takes.lex_token (h : Takes defines w rest (some token)) :
    lex defines line (w ++ rest) =
      (token, line + w.count '\n') :: lex defines (line + w.count '\n') rest := by
  obtain ⟨r, hbest, haction⟩ := h
  simp [lex, scan_of_best hbest, haction, locate]

theorem Takes.lex_ignored (h : Takes defines w rest none) :
    lex defines line (w ++ rest) = lex defines (line + w.count '\n') rest := by
  obtain ⟨r, hbest, haction⟩ := h
  simp [lex, scan_of_best hbest, haction, locate]

end Steps

end QoSMos.Lexer
