import QoSMos.Script.LexerRules

/-!
# Words and numbers of a script

The lexer takes keywords, options, numbers and words whole wherever something stands behind them
that is not plain, or a colon that is no part of an IPv6 address.
-/

namespace QoSMos.Lexer

open Scanner Pattern

/-! ## Lexemes of simple characters -/

section Simple

variable {defines : List Configuration.Definition} {q : Rule Char (Option Token)}
  {w name rest : List Char} {c : Char} {text : String} {keyword : Keyword}

/-- A number for a text, with which texts are compared faster. -/
def textCode (text : List Char) : Nat := text.foldl (fun n c => 256 * n + c.toNat) 0

theorem keywords_distinct : (keywords.map fun k => k.1.toList).Nodup :=
  List.Nodup.of_map textCode (by decide +kernel)

theorem keyword_ne_nil (hk : (text, keyword) ∈ keywords) : text.toList ≠ [] := by
  intro hnil
  have htext := isKeywordText_of_mem hk
  rw [hnil] at htext
  cases htext

theorem keyword_simple (hk : (text, keyword) ∈ keywords) : ∀ c ∈ text.toList, Simple c := by
  have htext := isKeywordText_of_mem hk
  simp only [isKeywordText, Bool.and_eq_true, List.all_eq_true, decide_eq_true_eq] at htext
  exact htext.1

theorem takes_keyword (hk : (text, keyword) ∈ keywords) (hends : Ends rest) :
    Takes defines text.toList rest (some (.keyword keyword)) := by
  obtain ⟨front, back, hsplit⟩ := List.append_of_mem hk
  have hnodup := keywords_distinct
  rw [hsplit, List.map_append, List.map_cons] at hnodup
  have hrules : rules defines = front.map keywordRule ++ keywordRule (text, keyword) ::
      (back.map keywordRule ++ (numberRules ++ wordRule defines :: otherRules)) := by
    simp [rules, keywordRules, hsplit]
  refine Takes.of_split hrules (mem_literal.mpr rfl) (keyword_ne_nil hk) ?_
    fun q hq v hv hpre => no_extension (keyword_simple hk) (keyword_ne_nil hk) hends hq hv hpre
  intro q hq hmem
  obtain ⟨k, hk, rfl⟩ := List.mem_map.mp hq
  have hsame : text.toList = k.1.toList := mem_literal.mp hmem
  exact (List.nodup_append.mp hnodup).2.2 _ (List.mem_map_of_mem hk) _ List.mem_cons_self hsame.symm

/-- What does not start as a keyword is no keyword. -/
theorem not_keyword (hhead : ∀ c ∈ w.head?, c.isAlpha = false) (hdots : w ≠ ['.', '.', '.'])
    (hq : q ∈ keywordRules) : w ∉ q.pattern.language := by
  intro hmem
  obtain ⟨k, hk, rfl⟩ := List.mem_map.mp hq
  obtain rfl := mem_literal.mp hmem
  have htext := isKeywordText_of_mem hk
  simp only [isKeywordText, Bool.and_eq_true, Bool.or_eq_true, beq_iff_eq] at htext
  rcases htext.2 with halpha | hsame
  · obtain ⟨c, hc, halpha⟩ := Option.any_eq_true _ _ |>.mp halpha
    exact absurd (hhead c hc) (by simp [halpha])
  · exact hdots hsame

theorem mem_optionPattern (h : w ∈ optionPattern.language) : ∃ u, w = '-' :: '-' :: u := by
  obtain ⟨u, hu, rfl⟩ := mem_seq_char h
  obtain ⟨v, _, rfl⟩ := mem_seq_char hu
  exact ⟨v, rfl⟩

theorem mem_sign (h : w ∈ (optional (char '-')).language) : w = [] ∨ w = ['-'] := by
  rcases h with h | h
  · exact .inr (mem_char.mp h)
  · exact .inl ((Language.mem_one w).mp h)

theorem mem_floatPattern (h : w ∈ floatPattern.language) : ∃ sign digits more,
    w = sign ++ (digits ++ '.' :: more) ∧ (sign = [] ∨ sign = ['-']) ∧
      (∀ c ∈ digits, isDigit c = true) ∧ more ≠ [] ∧ ∀ c ∈ more, isDigit c = true := by
  obtain ⟨sign, v, rfl, hsign, hv⟩ := mem_seq.mp h
  obtain ⟨digits, v, rfl, hdigits, hv⟩ := mem_seq.mp hv
  obtain ⟨more, hmore, rfl⟩ := mem_seq_char hv
  obtain ⟨hne, hmore⟩ := mem_plus_one.mp hmore
  exact ⟨sign, digits, more, rfl, mem_sign hsign, mem_star_one.mp hdigits, hne, hmore⟩

theorem mem_integerPattern (h : w ∈ integerPattern.language) :
    ∀ c ∈ w, c = '-' ∨ isDigit c = true := by
  have hwithin : integerPattern.Within (fun c => c = '-' ∨ isDigit c = true) :=
    ⟨⟨within_char (.inl rfl), trivial⟩, fun _ => .inr, fun _ => .inr⟩
  exact hwithin.forall_mem h

theorem isAlpha_of_isDigit (h : isDigit c = true) : c.isAlpha = false := by
  simp only [isDigit, Char.isDigit, Char.isAlpha, Char.isUpper, Char.isLower] at *
  grind

theorem split_at_rule {before middle after : List (Rule Char (Option Token))} {k : Nat}
    (hk : k < middle.length) : before ++ middle ++ after =
      (before ++ middle.take k) ++ middle[k] :: (middle.drop (k + 1) ++ after) := by
  have hmiddle : middle = middle.take k ++ middle[k] :: middle.drop (k + 1) := by
    rw [List.cons_getElem_drop_succ, List.take_append_drop]
  refine (congrArg (fun middle => before ++ middle ++ after) hmiddle).trans ?_
  simp only [List.append_assoc, List.cons_append]

/-- One of the rules between those for keywords and the one for words. -/
theorem takes_number {k : Nat} (hk : k < numberRules.length)
    (hw : w ∈ numberRules[k].pattern.language) (hne : w ≠ []) (hsimple : ∀ c ∈ w, Simple c)
    (hends : Ends rest) (hhead : ∀ c ∈ w.head?, c.isAlpha = false) (hdots : w ≠ ['.', '.', '.'])
    (hbefore : ∀ q ∈ numberRules.take k, w ∉ q.pattern.language) :
    Takes defines w rest (numberRules[k].action w) := by
  refine Takes.of_split (split_at_rule hk) hw hne (List.forall_mem_append.mpr ⟨?_, hbefore⟩)
    fun q hq v hv hpre => no_extension hsimple hne hends hq hv hpre
  exact fun q hq => not_keyword hhead hdots hq

theorem takes_option (hne : name ≠ []) (hname : ∀ c ∈ name, isWordChar c = true)
    (hends : Ends rest) : Takes defines ('-' :: '-' :: name) rest (some (.option name)) := by
  have hmem : '-' :: '-' :: name ∈ optionPattern.language :=
    mem_seq.mpr ⟨['-'], _, rfl, mem_char.mpr rfl, mem_seq.mpr ⟨['-'], _, rfl, mem_char.mpr rfl,
      mem_plus_one.mpr ⟨hne, hname⟩⟩⟩
  exact takes_number (k := 0) (by decide) hmem (by simp) (within_optionPattern.forall_mem hmem)
    hends (by simp) (by simp) (List.forall_mem_nil _)

theorem isDigit_ne_minus (h : isDigit c = true) : c ≠ '-' := by
  rintro rfl
  exact absurd h (by decide)

/-- A sign is not the start of an option. -/
theorem not_option {sign : List Char} (hsign : sign = [] ∨ sign = ['-'])
    (hhead : ∀ c ∈ w.head?, c ≠ '-') : sign ++ w ∉ optionPattern.language := by
  intro hmem
  obtain ⟨u, hu⟩ := mem_optionPattern hmem
  rcases hsign with rfl | rfl
  · have hw : w = '-' :: '-' :: u := hu
    exact hhead '-' (hw ▸ rfl) rfl
  · have hw : w = '-' :: u := (List.cons.inj hu).2
    exact hhead '-' (hw ▸ rfl) rfl

/-- What starts with a sign, a digit or a dot is no keyword but the ellipsis. -/
theorem head_not_alpha {sign : List Char} (hsign : sign = [] ∨ sign = ['-'])
    (hhead : ∀ c ∈ w.head?, c.isAlpha = false) : ∀ c ∈ (sign ++ w).head?, c.isAlpha = false := by
  rcases hsign with rfl | rfl
  · exact hhead
  · intro c hc
    obtain rfl := Option.some.inj hc
    decide

theorem takes_floating (hmem : w ∈ floatPattern.language) (hends : Ends rest) :
    Takes defines w rest (some (.floating w)) := by
  obtain ⟨sign, digits, more, rfl, hsign, hdigits, hne, hmore⟩ := mem_floatPattern hmem
  have hhead : ∀ c ∈ (digits ++ '.' :: more).head?, c = '.' ∨ isDigit c = true := by
    intro c hc
    cases digits with
    | nil => exact .inl (Option.some.inj hc).symm
    | cons d digits => exact .inr (Option.some.inj hc ▸ hdigits d List.mem_cons_self)
  refine takes_number (k := 1) (by decide) hmem (by simp)
    (within_floatPattern.forall_mem hmem) hends (head_not_alpha hsign fun c hc => ?_) ?_
    (List.forall_mem_singleton.mpr (not_option hsign fun c hc => ?_))
  · rcases hhead c hc with rfl | hc
    · decide
    · exact isAlpha_of_isDigit hc
  · intro hdots
    obtain ⟨d, more, rfl⟩ := List.exists_cons_of_ne_nil hne
    have hd : d ∈ ['.', '.', '.'] := hdots ▸ by simp
    have hdigit := hmore d List.mem_cons_self
    simp only [List.mem_cons, List.not_mem_nil, or_false, or_self] at hd
    exact absurd (hd ▸ hdigit) (by decide)
  · rcases hhead c hc with rfl | hc
    · decide
    · exact isDigit_ne_minus hc

/-- The text of a number. -/
def numeral (negative : Bool) (n : Nat) : List Char :=
  (if negative then ['-'] else []) ++ Nat.toDigits 10 n

theorem isDigit_of_mem_toDigits {n : Nat} : ∀ c ∈ Nat.toDigits 10 n, isDigit c = true := fun _ hc =>
  Nat.isDigit_of_mem_toDigits (by decide) (by decide) hc

theorem atoll_numeral {negative : Bool} {n : Nat} (hn : n ≤ Numeral.LONG_MAX) :
    atoll (numeral negative n) = if negative then -(n : Int) else n := by
  cases negative with
  | false =>
    have hread := @Numeral.strtol_toDigits n [] hn (by simp)
    rw [List.append_nil] at hread
    simp [atoll, numeral, hread]
  | true =>
    have hsign : Numeral.sign ((numeral true n).dropWhile Numeral.isSpace) =
        (true, Nat.toDigits 10 n) := rfl
    have htake : (Nat.toDigits 10 n).takeWhile Char.isDigit = Nat.toDigits 10 n :=
      List.takeWhile_eq_self_iff.mpr isDigit_of_mem_toDigits
    have hle : n ≤ Numeral.LONG_MAX + 1 := hn.trans (Nat.le_succ _)
    simp [atoll, Numeral.strtol, Numeral.read, hsign, htake, Nat.toDigits_ne_nil,
      Numeral.clampLong, hle, Nat.ofDigitChars_ten_toDigits]

theorem takes_integer {negative : Bool} {n : Nat} (hn : n ≤ Numeral.LONG_MAX) (hends : Ends rest) :
    Takes defines (numeral negative n) rest
      (some (.integer (if negative then -(n : Int) else n))) := by
  have hsign : (if negative then ['-'] else []) = ([] : List Char) ∨
      (if negative then ['-'] else []) = ['-'] := by
    cases negative <;> simp
  have hhead : ∀ c ∈ (Nat.toDigits 10 n).head?, isDigit c = true := fun c hc =>
    isDigit_of_mem_toDigits c (List.mem_of_mem_head? hc)
  have hmem : numeral negative n ∈ integerPattern.language := by
    refine mem_seq.mpr ⟨_, _, rfl, ?_, mem_plus_one.mpr
      ⟨Nat.toDigits_ne_nil, isDigit_of_mem_toDigits⟩⟩
    cases negative with
    | false => exact .inr ((Language.mem_one _).mpr rfl)
    | true => exact .inl (mem_char.mpr rfl)
  have hdot : '.' ∉ numeral negative n := by
    intro hdot
    rcases mem_integerPattern hmem _ hdot with h | h
    · cases h
    · exact absurd h (by decide)
  rw [← atoll_numeral hn]
  refine takes_number (k := 2) (by decide) hmem (by simp [numeral, Nat.toDigits_ne_nil])
    (within_integerPattern.forall_mem hmem) hends
    (head_not_alpha hsign fun c hc => isAlpha_of_isDigit (hhead c hc)) ?_ ?_
  · intro hdots
    exact hdot (hdots ▸ List.mem_cons_self)
  · refine List.forall_mem_cons.mpr ⟨not_option hsign fun c hc => isDigit_ne_minus (hhead c hc),
      List.forall_mem_singleton.mpr fun hfloat => ?_⟩
    obtain ⟨_, _, _, hsplit, _⟩ := mem_floatPattern hfloat
    exact hdot (hsplit ▸ by simp)

theorem takes_hexInteger {digits : List Char} (hne : digits ≠ [])
    (hdigits : ∀ c ∈ digits, isHexDigit c = true) (hends : Ends rest) :
    Takes defines ('0' :: 'x' :: digits) rest
      (some (.hexInteger (hextol ('0' :: 'x' :: digits)))) := by
  have hmem : '0' :: 'x' :: digits ∈ hexPattern.language :=
    mem_seq.mpr ⟨['0'], _, rfl, mem_char.mpr rfl, mem_seq.mpr ⟨['x'], _, rfl, mem_char.mpr rfl,
      mem_plus_one.mpr ⟨hne, hdigits⟩⟩⟩
  refine takes_number (k := 3) (by decide) hmem (by simp) (within_hexPattern.forall_mem hmem)
    hends (by simp) (by simp) ?_
  refine List.forall_mem_cons.mpr ⟨not_option (.inl rfl) (by simp), List.forall_mem_cons.mpr
    ⟨fun hfloat => ?_, List.forall_mem_singleton.mpr fun hinteger => ?_⟩⟩
  · have hwithin : floatPattern.Within (fun c => c = '-' ∨ c = '.' ∨ isDigit c = true) :=
      ⟨⟨within_char (.inl rfl), trivial⟩, fun _ h => .inr (.inr h), within_char (.inr (.inl rfl)),
        fun _ h => .inr (.inr h), fun _ h => .inr (.inr h)⟩
    rcases hwithin.forall_mem hfloat 'x' (by simp) with h | h | h
    · cases h
    · cases h
    · exact absurd h (by decide)
  · rcases mem_integerPattern hinteger 'x' (by simp) with h | h
    · cases h
    · exact absurd h (by decide)

theorem takes_word (hne : w ≠ []) (hw : ∀ c ∈ w, isWordChar c = true)
    (hkeyword : ∀ k ∈ keywords, k.1.toList ≠ w) (hnumber : ∃ c ∈ w, isDigit c = false)
    (hhex : w ∉ hexPattern.language) (hends : Ends rest) :
    Takes defines w rest (some (word defines w)) := by
  have hmem : w ∈ wordPattern.language := mem_plus_one.mpr ⟨hne, hw⟩
  have hword {c : Char} (hc : isWordChar c = false) : c ∉ w := fun hmem =>
    absurd ((hw c hmem).symm.trans hc) (by decide)
  refine @Takes.of_split defines (keywordRules ++ numberRules) otherRules (wordRule defines) w rest
    rfl hmem hne (List.forall_mem_append.mpr ⟨fun q hq hmem => ?_, ?_⟩)
    fun q hq v hv hpre => no_extension (within_wordPattern.forall_mem hmem) hne hends hq hv hpre
  · obtain ⟨k, hk, rfl⟩ := List.mem_map.mp hq
    exact hkeyword k hk (mem_literal.mp hmem).symm
  · refine List.forall_mem_cons.mpr ⟨fun hoption => ?_, List.forall_mem_cons.mpr ⟨fun hfloat => ?_,
      List.forall_mem_cons.mpr ⟨fun hinteger => ?_, List.forall_mem_singleton.mpr hhex⟩⟩⟩
    · obtain ⟨u, rfl⟩ := mem_optionPattern hoption
      exact hword (c := '-') (by decide) List.mem_cons_self
    · obtain ⟨_, _, _, hsplit, _⟩ := mem_floatPattern hfloat
      exact hword (c := '.') (by decide) (hsplit ▸ by simp)
    · obtain ⟨c, hc, hdigit⟩ := hnumber
      rcases mem_integerPattern hinteger c hc with rfl | h
      · exact hword (by decide) hc
      · exact absurd (h.symm.trans hdigit) (by decide)

end Simple

end QoSMos.Lexer
