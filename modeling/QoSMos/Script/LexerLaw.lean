import QoSMos.Script.LexerWords

/-!
# What the lexer reads

A script that is written as lexemes with blanks and comments between them is read as their tokens.
In particular the sequence numbers of a packet are numbers, although they have a colon between them.
-/

namespace QoSMos.Lexer

open Scanner Pattern

/-! ## Addresses, and other lexemes -/

section Others

variable {defines : List Configuration.Definition} {q : Rule Char (Option Token)}
  {w v body rest : List Char} {c quote : Char}

/-- One of the rules behind the one for words. -/
theorem takes_other {k : Nat} (hk : k < otherRules.length)
    (hw : w ∈ otherRules[k].pattern.language) (hne : w ≠ [])
    (hfront : ∀ q ∈ keywordRules ++ numberRules ++ [wordRule defines], w ∉ q.pattern.language)
    (hbefore : ∀ q ∈ otherRules.take k, w ∉ q.pattern.language)
    (hext : ∀ q ∈ rules defines, ∀ v ≠ [], v <+: rest → w ++ v ∉ q.pattern.language) :
    Takes defines w rest (otherRules[k].action w) := by
  have hrules : rules defines = (keywordRules ++ numberRules ++ [wordRule defines] ++
      otherRules.take k) ++ otherRules[k] :: (otherRules.drop (k + 1) ++ []) := by
    rw [← split_at_rule hk, rules_eq, List.append_nil]
  exact Takes.of_split hrules hw hne (List.forall_mem_append.mpr ⟨hfront, hbefore⟩) hext

/-- A pattern that starts with another character does not match. -/
theorem not_mem_seq_char {d : Char} {a : Pattern Char} (hd : c ≠ d) :
    c :: w ∉ (seq (char d) a).language := fun hmem => by
  obtain ⟨u, _, hcons⟩ := mem_seq_char hmem
  exact hd (List.cons.inj hcons).1

/-- A character that no other lexeme starts with. -/
def IsSingle (c : Char) : Prop :=
  isPlain c = false ∧ isBlank c = false ∧ c ≠ '"' ∧ c ≠ '`' ∧ c ≠ '/' ∧ c ≠ '%'

theorem takes_single (hc : IsSingle c) : Takes defines [c] rest (some (.character c)) := by
  obtain ⟨hplain, hblank, hquote, hbackQuote, hslash, hpercent⟩ := hc
  have hmem : [c] ∈ (otherRules[2]).pattern.language := ⟨c, by simp [hblank], rfl⟩
  refine takes_other (k := 2) (by decide) hmem (by simp) (fun q => front_excludes hplain)
    (List.forall_mem_cons.mpr ⟨not_mem_seq_char hquote,
      List.forall_mem_singleton.mpr (not_mem_seq_char hbackQuote)⟩) ?_
  intro q hq v hv _ hmem
  rcases open_cases hplain hq hmem with ⟨_, h | h⟩ | h | ⟨_, h⟩ | ⟨_, h⟩ | ⟨_, h⟩
  · exact hquote h
  · exact hbackQuote h
  · exact hv h
  · exact absurd (h.symm.trans hblank) (by decide)
  · exact hslash h
  · exact hpercent h

theorem takes_colon (hrest : rest.head? ≠ some ':') :
    Takes defines [':'] rest (some (.character ':')) := by
  have hplain : isPlain ':' = true := by decide
  have hmem : [':'] ∈ (otherRules[2]).pattern.language := ⟨':', by decide, rfl⟩
  have hsimple {a : Pattern Char} {u : List Char} (ha : a.Within Simple) : ':' :: u ∉ a.language :=
    fun hmem => (ha.forall_mem hmem ':' List.mem_cons_self).2 rfl
  refine takes_other (k := 2) (by decide) hmem (by simp) (fun q hq => hsimple (within_front hq))
    (List.forall_mem_cons.mpr ⟨not_mem_seq_char (by decide), List.forall_mem_singleton.mpr
      (not_mem_seq_char (by decide))⟩) ?_
  intro q hq v hv hpre hmem
  rcases rule_cases hq with hwithin | hipv6 | hstarts | hone
  · exact hsimple hwithin hmem
  · rw [hipv6] at hmem
    obtain ⟨u, rfl⟩ := (mem_ipv6Addr hmem).2 v rfl
    obtain ⟨t, rfl⟩ := hpre
    exact hrest rfl
  · exact absurd ((hstarts.head hmem).symm.trans hplain) (by decide)
  · rw [hone] at hmem
    obtain ⟨c, _, hcons⟩ := hmem
    exact hv (List.cons.inj hcons).2

theorem takes_blanks (hne : w ≠ []) (hw : ∀ c ∈ w, isBlank c = true)
    (hrest : ∀ c ∈ rest.head?, isBlank c = false) : Takes defines w rest none := by
  have hmem : w ∈ (otherRules[3]).pattern.language := mem_plus_one.mpr ⟨hne, hw⟩
  obtain ⟨c, w, rfl⟩ := List.exists_cons_of_ne_nil hne
  have hblank := hw c List.mem_cons_self
  have hplain := isPlain_of_isBlank hblank
  have hstart {d : Char} {a : Pattern Char} (hd : isBlank d = false) :
      c :: w ∉ (seq (char d) a).language := not_mem_seq_char fun hsame =>
    absurd ((hsame ▸ hblank).symm.trans hd) (by decide)
  have hone : c :: w ∉ (one fun c => !isBlank c).language := by
    rintro ⟨d, hd, hcons⟩
    obtain ⟨rfl, _⟩ := List.cons.inj hcons
    simp [hblank] at hd
  refine takes_other (k := 3) (by decide) hmem hne (fun q => front_excludes hplain)
    (List.forall_mem_cons.mpr ⟨hstart (by decide), List.forall_mem_cons.mpr
      ⟨hstart (by decide), List.forall_mem_singleton.mpr hone⟩⟩) ?_
  intro q hq v hv hpre hmem
  obtain ⟨d, v, rfl⟩ := List.exists_cons_of_ne_nil hv
  have hd : isBlank d = false := hrest d (by obtain ⟨t, rfl⟩ := hpre; rfl)
  rcases open_cases hplain hq hmem with ⟨_, rfl | rfl⟩ | hnil | ⟨hq, _⟩ | ⟨_, rfl⟩ | ⟨_, rfl⟩
  · exact absurd hblank (by decide)
  · exact absurd hblank (by decide)
  · simp at hnil
  · rw [hq] at hmem
    exact absurd (((mem_plus_one.mp hmem).2 d (by simp)).symm.trans hd) (by decide)
  · exact absurd hblank (by decide)
  · exact absurd hblank (by decide)

/-! ### Strings -/

/-- Every quote is directly behind a backslash. -/
def Escaped (quote : Char) (body : List Char) : Prop :=
  ∀ u v, body = u ++ quote :: v → u.getLast? = some '\\'

/-- What stands between the quotes of a string. -/
def quotedBody (quote : Char) : Pattern Char :=
  star (alt (seq (char '\\') (charBut '\n')) (charBut quote))

theorem Escaped.tail (h : Escaped quote (c :: body)) (hc : c = '\\' → body.head? ≠ some quote) :
    Escaped quote body := by
  intro u v hsplit
  have hlast := h (c :: u) v (by rw [hsplit, List.cons_append])
  cases u with
  | nil =>
    subst hsplit
    exact absurd rfl (hc (Option.some.inj hlast))
  | cons d u => simpa using hlast

theorem mem_quotedBody {quote : Char} {body : List Char} (hquote : quote ≠ '\\')
    (hnewline : quote ≠ '\n') (h : Escaped quote body) : body ∈ (quotedBody quote).language := by
  have hsingle {c : Char} {body : List Char} (h : Escaped quote (c :: body)) :
      [c] ∈ (charBut quote).language := by
    refine ⟨c, decide_eq_true ?_, rfl⟩
    rintro rfl
    cases h [] body rfl
  match body with
  | [] => exact Language.nil_mem_kstar _
  | [c] => exact cons_mem_kstar.mpr ⟨[], [], rfl, .inr (hsingle h), Language.nil_mem_kstar _⟩
  | c :: d :: body =>
    by_cases hescape : c = '\\' ∧ d = quote
    · have htail : Escaped quote body := by
        intro u v hsplit
        have hlast := h (c :: d :: u) v (by rw [hsplit]; rfl)
        cases u with
        | nil => exact absurd (hescape.2 ▸ Option.some.inj hlast) hquote
        | cons e u => simpa using hlast
      refine cons_mem_kstar.mpr ⟨[d], body, rfl, .inl ?_, mem_quotedBody hquote hnewline htail⟩
      exact mem_seq.mpr ⟨[c], [d], rfl, mem_char.mpr (by rw [hescape.1]), d,
        decide_eq_true (hescape.2 ▸ hnewline), rfl⟩
    · have htail := h.tail fun hc hhead => hescape ⟨hc, Option.some.inj hhead⟩
      exact cons_mem_kstar.mpr ⟨[], d :: body, rfl, .inr (hsingle h),
        mem_quotedBody hquote hnewline htail⟩
termination_by body.length

theorem Escaped.cons (h : Escaped quote body) (hc : c ≠ quote) : Escaped quote (c :: body) := by
  intro u v hsplit
  cases u with
  | nil => exact absurd (List.cons.inj hsplit).1 hc
  | cons d u =>
    have hlast := h u v (List.cons.inj hsplit).2
    rw [List.getLast?_cons, hlast]
    rfl

theorem Escaped.escape (h : Escaped quote body) (hquote : quote ≠ '\\') :
    Escaped quote ('\\' :: c :: body) := by
  intro u v hsplit
  match u with
  | [] => exact absurd (List.cons.inj hsplit).1.symm hquote
  | [d] => rw [List.getLast?_singleton, (List.cons.inj hsplit).1]
  | d :: e :: u =>
    have hlast := h u v (List.cons.inj (List.cons.inj hsplit).2).2
    rw [List.getLast?_cons, List.getLast?_cons, hlast]
    rfl

theorem escaped_of_mem {w : List Char} (hquote : quote ≠ '\\')
    (h : w ∈ (quotedBody quote).language) : Escaped quote w := by
  match w with
  | [] =>
    intro u v hsplit
    simp at hsplit
  | c :: w =>
    obtain ⟨x, y, rfl, hx, hy⟩ := cons_mem_kstar.mp h
    rcases hx with hx | ⟨d, hd, hcons⟩
    · obtain ⟨x, ⟨d, _, rfl⟩, hcons⟩ := mem_seq_char hx
      obtain ⟨rfl, rfl⟩ := List.cons.inj hcons
      have hescaped : Escaped quote y := escaped_of_mem hquote hy
      exact hescaped.escape hquote
    · obtain ⟨rfl, rfl⟩ := List.cons.inj hcons
      have hescaped : Escaped quote y := escaped_of_mem hquote hy
      exact hescaped.cons (of_decide_eq_true hd)
termination_by w.length

theorem mem_quotedPattern {quote : Char} :
    w ∈ (quotedPattern quote).language ↔
      ∃ body ∈ (quotedBody quote).language, w = quote :: (body ++ [quote]) := by
  constructor
  · intro h
    obtain ⟨u, hu, rfl⟩ := mem_seq_char h
    obtain ⟨body, v, rfl, hbody, hv⟩ := mem_seq.mp hu
    exact ⟨body, hbody, by rw [mem_char.mp hv]⟩
  · rintro ⟨body, hbody, rfl⟩
    exact mem_seq.mpr ⟨[quote], _, rfl, mem_char.mpr rfl, mem_seq.mpr ⟨body, _, rfl, hbody,
      mem_char.mpr rfl⟩⟩

/-- A string ends at the first quote that is not behind a backslash. -/
theorem quoted_no_extension (hquote : quote ≠ '\\') (hlast : body.getLast? ≠ some '\\')
    (hv : v ≠ []) : quote :: (body ++ [quote]) ++ v ∉ (quotedPattern quote).language := by
  intro hmem
  obtain ⟨inner, hinner, hsplit⟩ := mem_quotedPattern.mp hmem
  have htail : body ++ quote :: v = inner ++ [quote] := by
    simpa using (List.cons.inj hsplit).2
  have hbody : inner = body ++ quote :: v.dropLast := by
    have hdrop := congrArg List.dropLast htail
    rw [List.dropLast_concat, List.dropLast_append_of_ne_nil (by simp),
      List.dropLast_cons_of_ne_nil hv] at hdrop
    exact hdrop.symm
  exact hlast (escaped_of_mem hquote hinner body v.dropLast hbody)

theorem quoted_enclosed (hquote : quote ≠ '\x00') (hnul : '\x00' ∉ body) :
    quoted (quote :: (body ++ [quote])) = body := by
  have hstring : cString (quote :: (body ++ [quote])) = quote :: (body ++ [quote]) := by
    refine List.takeWhile_eq_self_iff.mpr fun c hc => ?_
    simp only [List.mem_cons, List.mem_append, List.not_mem_nil, or_false] at hc
    refine decide_eq_true ?_
    rintro rfl
    rcases hc with hc | hc | hc
    · exact hquote hc.symm
    · exact hnul hc
    · exact hquote hc.symm
  simp [quoted, hstring]

/-- The rule for strings between two quotes of a kind. -/
theorem takes_quoted {k : Nat} (hk : k < otherRules.length)
    (hpattern : otherRules[k].pattern = quotedPattern quote) (hquote : quote = '"' ∨ quote = '`')
    (hbefore : ∀ q ∈ otherRules.take k, quote :: (body ++ [quote]) ∉ q.pattern.language)
    (hbody : Escaped quote body) (hlast : body.getLast? ≠ some '\\') :
    Takes defines (quote :: (body ++ [quote])) rest
      (otherRules[k].action (quote :: (body ++ [quote]))) := by
  have hne {c : Char} (h₁ : c ≠ '"') (h₂ : c ≠ '`') : quote ≠ c := by
    rintro rfl
    exact hquote.elim h₁ h₂
  have hplain : isPlain quote = false := by
    rcases hquote with rfl | rfl <;> decide
  have hblank : isBlank quote = false := by
    rcases hquote with rfl | rfl <;> decide
  have hmem : quote :: (body ++ [quote]) ∈ otherRules[k].pattern.language := by
    rw [hpattern]
    exact mem_quotedPattern.mpr ⟨body, mem_quotedBody (hne (by decide) (by decide))
      (hne (by decide) (by decide)) hbody, rfl⟩
  refine takes_other hk hmem (by simp) (fun q => front_excludes hplain) hbefore ?_
  intro q hq v hv _ hmem
  rcases open_cases hplain hq hmem with ⟨hq, _⟩ | h | ⟨_, h⟩ | ⟨_, h⟩ | ⟨_, h⟩
  · rw [hq] at hmem
    exact quoted_no_extension (hne (by decide) (by decide)) hlast hv hmem
  · simp at h
  · exact absurd (h.symm.trans hblank) (by decide)
  · exact hne (by decide) (by decide) h
  · exact hne (by decide) (by decide) h

theorem takes_string (hbody : Escaped '"' body) (hlast : body.getLast? ≠ some '\\')
    (hnul : '\x00' ∉ body) :
    Takes defines ('"' :: (body ++ ['"'])) rest (some (.string body)) := by
  have htakes : Takes defines ('"' :: (body ++ ['"'])) rest
      (some (.string (quoted ('"' :: (body ++ ['"']))))) :=
    @takes_quoted defines body rest '"' 0 (by decide) rfl (.inl rfl) (List.forall_mem_nil _)
      hbody hlast
  rwa [quoted_enclosed (by decide) hnul] at htakes

theorem takes_backQuoted (hbody : Escaped '`' body) (hlast : body.getLast? ≠ some '\\')
    (hnul : '\x00' ∉ body) :
    Takes defines ('`' :: (body ++ ['`'])) rest (some (.backQuoted body)) := by
  have htakes : Takes defines ('`' :: (body ++ ['`'])) rest
      (some (.backQuoted (quoted ('`' :: (body ++ ['`']))))) :=
    @takes_quoted defines body rest '`' 1 (by decide) rfl (.inr rfl)
      (List.forall_mem_singleton.mpr (not_mem_seq_char (by decide))) hbody hlast
  rwa [quoted_enclosed (by decide) hnul] at htakes

/-! ### Comments and snippets -/

theorem mem_delimited {a b x y : Char} (h : w ∈ (delimited a b x y).language) :
    ∃ body ∈ (star (alt (charBut x) (seq (char x) (charBut y)))).language,
      w = a :: b :: (body ++ [x, y]) := by
  obtain ⟨u, hu, rfl⟩ := mem_seq_char h
  obtain ⟨t, ht, rfl⟩ := mem_seq_char hu
  obtain ⟨body, v, rfl, hbody, hv⟩ := mem_seq.mp ht
  obtain ⟨z, hz, rfl⟩ := mem_seq_char hv
  obtain rfl := mem_char.mp hz
  exact ⟨body, hbody, rfl⟩

theorem delimited_of_body {a b x y : Char} (hbody : x ∉ body) :
    a :: b :: (body ++ [x, y]) ∈ (delimited a b x y).language := by
  have hstar : body ∈ (star (alt (charBut x) (seq (char x) (charBut y)))).language := by
    induction body with
    | nil => exact Language.nil_mem_kstar _
    | cons c body ih =>
      obtain ⟨hc, hbody⟩ := not_or.mp (mt List.mem_cons.mpr hbody)
      exact cons_mem_kstar.mpr ⟨[], body, rfl, .inl ⟨c, decide_eq_true (Ne.symm hc), rfl⟩, ih hbody⟩
  exact mem_seq.mpr ⟨[a], _, rfl, mem_char.mpr rfl, mem_seq.mpr ⟨[b], _, rfl, mem_char.mpr rfl,
    mem_seq.mpr ⟨body, _, rfl, hstar, mem_seq.mpr ⟨[x], [y], rfl, mem_char.mpr rfl,
      mem_char.mpr rfl⟩⟩⟩⟩

/-- What stands between the delimiters has no closing delimiter behind text without its first
character. -/
theorem no_delimiter {x y : Char} (hbody : x ∉ body) :
    body ++ x :: y :: v ∉ (star (alt (charBut x) (seq (char x) (charBut y)))).language := by
  induction body with
  | nil =>
    intro hmem
    obtain ⟨u, t, hsplit, hu, _⟩ := cons_mem_kstar.mp hmem
    rcases hu with ⟨d, hd, hcons⟩ | hu
    · exact of_decide_eq_true hd (List.cons.inj hcons).1.symm
    · obtain ⟨z, ⟨d, hd, rfl⟩, hcons⟩ := mem_seq_char hu
      obtain ⟨_, rfl⟩ := List.cons.inj hcons
      exact of_decide_eq_true hd (List.cons.inj hsplit).1.symm
  | cons c body ih =>
    intro hmem
    obtain ⟨hc, hbody⟩ := not_or.mp (mt List.mem_cons.mpr hbody)
    obtain ⟨u, t, hsplit, hu, ht⟩ := cons_mem_kstar.mp hmem
    rcases hu with ⟨d, hd, hcons⟩ | hu
    · obtain ⟨_, rfl⟩ := List.cons.inj hcons
      have hrest : body ++ x :: y :: v = t := hsplit
      exact ih hbody (hrest ▸ ht)
    · obtain ⟨z, _, hcons⟩ := mem_seq_char hu
      exact hc (List.cons.inj hcons).1.symm

theorem delimited_no_extension {a b x y : Char} (hxy : x ≠ y) (hbody : x ∉ body) (hv : v ≠ []) :
    a :: b :: (body ++ [x, y]) ++ v ∉ (delimited a b x y).language := by
  intro hmem
  obtain ⟨inner, hinner, hsplit⟩ := mem_delimited hmem
  have htail : body ++ x :: y :: v = inner ++ [x, y] := by
    simpa using hsplit
  rcases List.append_eq_append_iff.mp htail with ⟨u, rfl, hu⟩ | ⟨u, rfl, hu⟩
  · match u with
    | [] => exact hv (List.cons.inj (List.cons.inj hu).2).2
    | [d] => exact hxy (List.cons.inj (List.cons.inj hu).2).1.symm
    | d :: e :: u =>
      rw [← (List.cons.inj hu).1, ← (List.cons.inj (List.cons.inj hu).2).1] at hinner
      exact no_delimiter hbody hinner
  · have hlen := congrArg List.length hu
    have hpos := List.length_pos_iff.mpr hv
    simp at hlen
    omega

/-- What starts with a slash or a percent sign is matched by no rule for blanks, strings or single
characters. -/
theorem not_before_comment (hblank : isBlank c = false) (hquote : c ≠ '"') (hbackQuote : c ≠ '`')
    (hw : w ≠ []) (hq : q ∈ otherRules.take 4) : c :: w ∉ q.pattern.language := by
  simp only [otherRules, List.take_succ_cons, List.take_zero, List.mem_cons, List.not_mem_nil,
    or_false] at hq
  rcases hq with rfl | rfl | rfl | rfl
  · exact not_mem_seq_char hquote
  · exact not_mem_seq_char hbackQuote
  · rintro ⟨d, _, hcons⟩
    exact hw (List.cons.inj hcons).2
  · intro hmem
    exact absurd (((mem_plus_one.mp hmem).2 c List.mem_cons_self).symm.trans hblank) (by decide)

theorem mem_cppComment : w ∈ cppComment.language ↔
    ∃ body, '\n' ∉ body ∧ w = '/' :: '/' :: (body ++ ['\n']) := by
  constructor
  · intro h
    obtain ⟨u, hu, rfl⟩ := mem_seq_char h
    obtain ⟨t, ht, rfl⟩ := mem_seq_char hu
    obtain ⟨body, v, rfl, hbody, hv⟩ := mem_seq.mp ht
    obtain rfl := mem_char.mp hv
    exact ⟨body, fun hnewline => by simpa using mem_star_one.mp hbody _ hnewline, rfl⟩
  · rintro ⟨body, hbody, rfl⟩
    refine mem_seq.mpr ⟨['/'], _, rfl, mem_char.mpr rfl, mem_seq.mpr ⟨['/'], _, rfl,
      mem_char.mpr rfl, mem_seq.mpr ⟨body, _, rfl, mem_star_one.mpr fun c hc => ?_,
        mem_char.mpr rfl⟩⟩⟩
    exact decide_eq_true fun hsame => hbody (hsame ▸ hc)

theorem takes_cppComment (hbody : '\n' ∉ body) :
    Takes defines ('/' :: '/' :: (body ++ ['\n'])) rest none := by
  have hplain : isPlain '/' = false := by decide
  have hmem : '/' :: '/' :: (body ++ ['\n']) ∈ (otherRules[4]).pattern.language :=
    mem_cppComment.mpr ⟨body, hbody, rfl⟩
  refine takes_other (k := 4) (by decide) hmem (by simp) (fun q => front_excludes hplain)
    (fun q => not_before_comment (by decide) (by decide) (by decide) (by simp)) ?_
  intro q hq v hv _ hmem
  rcases open_cases hplain hq hmem with ⟨_, h | h⟩ | h | ⟨_, h⟩ | ⟨hq | hq, _⟩ | ⟨_, h⟩
  · cases h
  · cases h
  · simp at h
  · exact absurd h (by decide)
  · rw [hq] at hmem
    obtain ⟨inner, hinner, hsplit⟩ := mem_cppComment.mp hmem
    have htail : body ++ '\n' :: v = inner ++ ['\n'] := by
      simpa using hsplit
    have hdrop := congrArg List.dropLast htail
    rw [List.dropLast_concat, List.dropLast_append_of_ne_nil (by simp),
      List.dropLast_cons_of_ne_nil hv] at hdrop
    exact hinner (hdrop ▸ by simp)
  · rw [hq] at hmem
    obtain ⟨inner, _, hsplit⟩ := mem_delimited hmem
    cases (List.cons.inj (List.cons.inj hsplit).2).1
  · cases h

theorem takes_cComment (hbody : '*' ∉ body) :
    Takes defines ('/' :: '*' :: (body ++ ['*', '/'])) rest none := by
  have hplain : isPlain '/' = false := by decide
  have hmem : '/' :: '*' :: (body ++ ['*', '/']) ∈ (otherRules[5]).pattern.language :=
    delimited_of_body hbody
  have hcpp {u : List Char} : '/' :: '*' :: u ∉ cppComment.language := by
    intro hmem
    obtain ⟨_, _, hsplit⟩ := mem_cppComment.mp hmem
    cases (List.cons.inj (List.cons.inj hsplit).2).1
  have hbefore (q : Rule Char (Option Token)) (hq : q ∈ otherRules.take 5) :
      '/' :: '*' :: (body ++ ['*', '/']) ∉ q.pattern.language := by
    rcases List.mem_append.mp (show q ∈ otherRules.take 4 ++ [otherRules[4]] from hq) with hq | hq
    · exact not_before_comment (by decide) (by decide) (by decide) (by simp) hq
    · obtain rfl := List.mem_singleton.mp hq
      exact hcpp
  refine takes_other (k := 5) (by decide) hmem (by simp) (fun q => front_excludes hplain) hbefore ?_
  intro q hq v hv _ hmem
  rcases open_cases hplain hq hmem with ⟨_, h | h⟩ | h | ⟨_, h⟩ | ⟨hq | hq, _⟩ | ⟨_, h⟩
  · cases h
  · cases h
  · simp at h
  · exact absurd h (by decide)
  · rw [hq] at hmem
    exact hcpp hmem
  · rw [hq] at hmem
    exact delimited_no_extension (by decide) hbody hv hmem
  · cases h

theorem takes_code (hbody : '}' ∉ body) :
    Takes defines ('%' :: '{' :: (body ++ ['}', '%'])) rest
      (some (.code ('%' :: '{' :: (body ++ ['}', '%'])))) := by
  have hplain : isPlain '%' = false := by decide
  have hmem : '%' :: '{' :: (body ++ ['}', '%']) ∈ (otherRules[6]).pattern.language :=
    delimited_of_body hbody
  have hbefore (q : Rule Char (Option Token)) (hq : q ∈ otherRules.take 6) :
      '%' :: '{' :: (body ++ ['}', '%']) ∉ q.pattern.language := by
    rcases List.mem_append.mp
      (show q ∈ otherRules.take 4 ++ [otherRules[4], otherRules[5]] from hq) with hq | hq
    · exact not_before_comment (by decide) (by decide) (by decide) (by simp) hq
    · rcases List.mem_pair.mp hq with rfl | rfl
      · exact not_mem_seq_char (by decide)
      · exact not_mem_seq_char (by decide)
  refine takes_other (k := 6) (by decide) hmem (by simp) (fun q => front_excludes hplain) hbefore ?_
  intro q hq v hv _ hmem
  rcases open_cases hplain hq hmem with ⟨_, h | h⟩ | h | ⟨_, h⟩ | ⟨_, h⟩ | ⟨hq, _⟩
  · cases h
  · cases h
  · simp at h
  · exact absurd h (by decide)
  · cases h
  · rw [hq] at hmem
    exact delimited_no_extension (by decide) hbody hv hmem

/-! ### Addresses -/

/-- What starts with no quote, slash or percent sign and is not a single character is matched by the
rules for addresses only. -/
theorem not_before_address (hplain : isPlain c = true) (hw : w ≠ []) (hq : q ∈ otherRules.take 7) :
    c :: w ∉ q.pattern.language := by
  have hne {d : Char} (hd : isPlain d = false) : c ≠ d := by
    rintro rfl
    exact absurd (hplain.symm.trans hd) (by decide)
  have hblank : isBlank c = false := by
    by_contra hblank
    exact absurd (hplain.symm.trans (isPlain_of_isBlank (by simpa using hblank))) (by decide)
  have hsplit : q ∈ otherRules.take 4 ++ [otherRules[4], otherRules[5], otherRules[6]] := hq
  rcases List.mem_append.mp hsplit with hq | hq
  · exact not_before_comment hblank (hne (by decide)) (hne (by decide)) hw hq
  · simp only [List.mem_cons, List.not_mem_nil, or_false] at hq
    rcases hq with rfl | rfl | rfl
    · exact not_mem_seq_char (hne (by decide))
    · exact not_mem_seq_char (hne (by decide))
    · exact not_mem_seq_char (hne (by decide))

theorem mem_digits (h : w ∈ (plus (one isDigit)).language) :
    w ≠ [] ∧ (∀ c ∈ w, isDigit c = true) ∧ w.count '.' = 0 := by
  obtain ⟨hne, hw⟩ := mem_plus_one.mp h
  refine ⟨hne, hw, List.count_eq_zero_of_not_mem fun hdot => ?_⟩
  exact absurd (hw _ hdot) (by decide)

theorem mem_ipv4Addr (h : w ∈ ipv4Addr.language) :
    w.count '.' = 3 ∧ ∃ c v, w = c :: v ∧ v ≠ [] ∧ isDigit c = true := by
  obtain ⟨n0, v, rfl, hn0, hv⟩ := mem_seq.mp h
  obtain ⟨v1, hv1, rfl⟩ := mem_seq_char hv
  obtain ⟨n1, u, rfl, hn1, hu⟩ := mem_seq.mp hv1
  obtain ⟨u1, hu1, rfl⟩ := mem_seq_char hu
  obtain ⟨n2, t, rfl, hn2, ht⟩ := mem_seq.mp hu1
  obtain ⟨n3, hn3, rfl⟩ := mem_seq_char ht
  obtain ⟨hne, hdigits, hcount⟩ := mem_digits hn0
  obtain ⟨c, n0, rfl⟩ := List.exists_cons_of_ne_nil hne
  refine ⟨?_, c, _, rfl, by simp, hdigits c List.mem_cons_self⟩
  rw [List.count_append, hcount]
  simp [(mem_digits hn1).2.2, (mem_digits hn2).2.2, (mem_digits hn3).2.2]

theorem takes_ipv4Addr (hw : w ∈ ipv4Addr.language) (hends : Ends rest) :
    Takes defines w rest (some (.ipv4Addr w)) := by
  obtain ⟨hcount, c, v, rfl, hv, hdigit⟩ := mem_ipv4Addr hw
  have hsimple := within_ipv4Addr.forall_mem hw
  have hdot : '.' ∈ c :: v := List.count_pos_iff.mp (by omega)
  refine takes_other (k := 7) (by decide) hw (by simp) ?_
    (fun q => not_before_address (hsimple c List.mem_cons_self).1 hv)
    fun q hq v hv hpre => no_extension hsimple (by simp) hends hq hv hpre
  refine List.forall_mem_append.mpr ⟨List.forall_mem_append.mpr ⟨fun q => not_keyword ?_ ?_, ?_⟩,
    List.forall_mem_singleton.mpr fun hword => ?_⟩
  · intro d hd
    obtain rfl := Option.some.inj hd
    exact isAlpha_of_isDigit hdigit
  · rintro hdots
    obtain ⟨rfl, _⟩ := List.cons.inj hdots
    exact absurd hdigit (by decide)
  · refine List.forall_mem_cons.mpr ⟨fun hoption => ?_, List.forall_mem_cons.mpr ⟨fun hfloat => ?_,
      List.forall_mem_cons.mpr ⟨fun hinteger => ?_, List.forall_mem_singleton.mpr fun hhex => ?_⟩⟩⟩
    · obtain ⟨u, hu⟩ := mem_optionPattern hoption
      exact isDigit_ne_minus hdigit (List.cons.inj hu).1
    · obtain ⟨sign, digits, more, hsplit, hsign, hdigits, _, hmore⟩ := mem_floatPattern hfloat
      have hzero {u : List Char} (hu : ∀ c ∈ u, isDigit c = true) : u.count '.' = 0 :=
        List.count_eq_zero_of_not_mem fun hdot => absurd (hu _ hdot) (by decide)
      have hone : (sign ++ (digits ++ '.' :: more)).count '.' = 1 := by
        rcases hsign with rfl | rfl <;> simp [hzero hdigits, hzero hmore]
      rw [hsplit, hone] at hcount
      cases hcount
    · rcases mem_integerPattern hinteger _ hdot with h | h
      · cases h
      · exact absurd h (by decide)
    · obtain ⟨u, hu, hcons⟩ := mem_seq_char hhex
      obtain ⟨t, ht, rfl⟩ := mem_seq_char hu
      rw [hcons] at hdot
      simp only [List.mem_cons] at hdot
      rcases hdot with h | h | h
      · cases h
      · cases h
      · exact absurd ((mem_plus_one.mp ht).2 _ h) (by decide)
  · exact absurd ((mem_plus_one.mp hword).2 _ hdot) (by decide)

theorem takes_ipv6Addr (hw : w ∈ ipv6Addr.language)
    (hrest : ∀ c ∈ rest.head?, isPlain c = false) :
    Takes defines w rest (some (.ipv6Addr w)) := by
  have hplain := within_ipv6Addr.forall_mem hw
  obtain ⟨c, d, v, rfl⟩ : ∃ c d v, w = c :: d :: v := by
    match w, (mem_ipv6Addr hw).1 with
    | [], h => exact absurd h (by simp [HasColons])
    | [c], h =>
      exfalso
      rcases h with ⟨s, t, htwo⟩ | hseven
      · have hlen := congrArg List.length htwo
        simp at hlen
        omega
      · have hle := List.count_le_length (a := ':') (l := [c])
        simp at hle hseven
        omega
    | c :: d :: v, _ => exact ⟨c, d, v, rfl⟩
  have hcolon : ':' ∈ c :: d :: v := by
    rcases (mem_ipv6Addr hw).1 with htwo | hseven
    · exact htwo.subset List.mem_cons_self
    · exact List.count_pos_iff.mp (by omega)
  have hsimple {a : Pattern Char} (u : List Char) (ha : a.Within Simple) :
      c :: d :: v ++ u ∉ a.language := fun hmem =>
    (ha.forall_mem hmem ':' (List.mem_append_left _ hcolon)).2 rfl
  have hwhole {a : Pattern Char} (ha : a.Within Simple) : c :: d :: v ∉ a.language := by
    rw [← List.append_nil (c :: d :: v)]
    exact hsimple [] ha
  refine takes_other (k := 8) (by decide) hw (by simp)
    (fun q hq => hwhole (within_front hq)) ?_ ?_
  · intro q hq
    rcases List.mem_append.mp (show q ∈ otherRules.take 7 ++ [otherRules[7]] from hq) with hq | hq
    · exact not_before_address (hplain c List.mem_cons_self) (by simp) hq
    · obtain rfl := List.mem_singleton.mp hq
      exact hwhole within_ipv4Addr
  · intro q hq u hu hpre hmem
    obtain ⟨e, u, rfl⟩ := List.exists_cons_of_ne_nil hu
    have he : isPlain e = false := hrest e (by obtain ⟨t, rfl⟩ := hpre; rfl)
    rcases rule_cases hq with hwithin | hipv6 | hstarts | hone
    · exact hsimple _ hwithin hmem
    · rw [hipv6] at hmem
      exact absurd ((within_ipv6Addr.forall_mem hmem e (by simp)).symm.trans he) (by decide)
    · exact absurd ((hstarts.head hmem).symm.trans (hplain c List.mem_cons_self)) (by decide)
    · rw [hone] at hmem
      obtain ⟨x, _, hcons⟩ := hmem
      simp at hcons

end Others

/-! ## Scripts -/

/-- A text is a lexeme in front of the rest of a script, and this is its token. -/
inductive IsLexeme (defines : List Configuration.Definition) : List Char → List Char → Token → Prop
  | keyword {text : String} {keyword : Keyword} {rest : List Char}
      (hk : (text, keyword) ∈ keywords) (hends : Ends rest) :
      IsLexeme defines text.toList rest (.keyword keyword)
  | option {name rest : List Char} (hne : name ≠ []) (hname : ∀ c ∈ name, isWordChar c = true)
      (hends : Ends rest) : IsLexeme defines ('-' :: '-' :: name) rest (.option name)
  | floating {w rest : List Char} (hw : w ∈ floatPattern.language) (hends : Ends rest) :
      IsLexeme defines w rest (.floating w)
  | integer {negative : Bool} {n : Nat} {rest : List Char} (hn : n ≤ Numeral.LONG_MAX)
      (hends : Ends rest) :
      IsLexeme defines (numeral negative n) rest (.integer (if negative then -(n : Int) else n))
  | hexInteger {digits rest : List Char} (hne : digits ≠ [])
      (hdigits : ∀ c ∈ digits, isHexDigit c = true) (hends : Ends rest) :
      IsLexeme defines ('0' :: 'x' :: digits) rest (.hexInteger (hextol ('0' :: 'x' :: digits)))
  | word {w rest : List Char} (hne : w ≠ []) (hw : ∀ c ∈ w, isWordChar c = true)
      (hkeyword : ∀ k ∈ keywords, k.1.toList ≠ w) (hnumber : ∃ c ∈ w, isDigit c = false)
      (hhex : w ∉ hexPattern.language) (hends : Ends rest) :
      IsLexeme defines w rest (word defines w)
  | string {body rest : List Char} (hbody : Escaped '"' body) (hlast : body.getLast? ≠ some '\\')
      (hnul : '\x00' ∉ body) : IsLexeme defines ('"' :: (body ++ ['"'])) rest (.string body)
  | backQuoted {body rest : List Char} (hbody : Escaped '`' body)
      (hlast : body.getLast? ≠ some '\\') (hnul : '\x00' ∉ body) :
      IsLexeme defines ('`' :: (body ++ ['`'])) rest (.backQuoted body)
  | single {c : Char} {rest : List Char} (hc : IsSingle c) :
      IsLexeme defines [c] rest (.character c)
  | colon {rest : List Char} (hrest : rest.head? ≠ some ':') :
      IsLexeme defines [':'] rest (.character ':')
  | code {body rest : List Char} (hbody : '}' ∉ body) :
      IsLexeme defines ('%' :: '{' :: (body ++ ['}', '%'])) rest
        (.code ('%' :: '{' :: (body ++ ['}', '%'])))
  | ipv4Addr {w rest : List Char} (hw : w ∈ ipv4Addr.language) (hends : Ends rest) :
      IsLexeme defines w rest (.ipv4Addr w)
  | ipv6Addr {w rest : List Char} (hw : w ∈ ipv6Addr.language)
      (hrest : ∀ c ∈ rest.head?, isPlain c = false) : IsLexeme defines w rest (.ipv6Addr w)

/-- A text is ignored in front of the rest of a script. -/
inductive IsGap : List Char → List Char → Prop
  | blanks {w rest : List Char} (hne : w ≠ []) (hw : ∀ c ∈ w, isBlank c = true)
      (hrest : ∀ c ∈ rest.head?, isBlank c = false) : IsGap w rest
  | cppComment {body rest : List Char} (hbody : '\n' ∉ body) :
      IsGap ('/' :: '/' :: (body ++ ['\n'])) rest
  | cComment {body rest : List Char} (hbody : '*' ∉ body) :
      IsGap ('/' :: '*' :: (body ++ ['*', '/'])) rest

/-- A script that starts in a line is written as lexemes with gaps between them. -/
inductive Laid (defines : List Configuration.Definition) :
    Nat → List Char → List (Token × Nat) → Prop
  | nil {line : Nat} : Laid defines line [] []
  | lexeme {line : Nat} {w rest : List Char} {token : Token} {tokens : List (Token × Nat)}
      (hlexeme : IsLexeme defines w rest token)
      (hrest : Laid defines (line + w.count '\n') rest tokens) :
      Laid defines line (w ++ rest) ((token, line + w.count '\n') :: tokens)
  | gap {line : Nat} {w rest : List Char} {tokens : List (Token × Nat)} (hgap : IsGap w rest)
      (hrest : Laid defines (line + w.count '\n') rest tokens) :
      Laid defines line (w ++ rest) tokens

section Scripts

variable {defines : List Configuration.Definition} {line : Nat} {w text rest : List Char}
  {token : Token} {tokens : List (Token × Nat)} {a b n : Nat}

theorem IsLexeme.takes (h : IsLexeme defines w rest token) :
    Takes defines w rest (some token) := by
  cases h with
  | keyword hk hends => exact takes_keyword hk hends
  | option hne hname hends => exact takes_option hne hname hends
  | floating hw hends => exact takes_floating hw hends
  | integer hn hends => exact takes_integer hn hends
  | hexInteger hne hdigits hends => exact takes_hexInteger hne hdigits hends
  | word hne hw hkeyword hnumber hhex hends =>
    exact takes_word hne hw hkeyword hnumber hhex hends
  | string hbody hlast hnul => exact takes_string hbody hlast hnul
  | backQuoted hbody hlast hnul => exact takes_backQuoted hbody hlast hnul
  | single hc => exact takes_single hc
  | colon hrest => exact takes_colon hrest
  | code hbody => exact takes_code hbody
  | ipv4Addr hw hends => exact takes_ipv4Addr hw hends
  | ipv6Addr hw hrest => exact takes_ipv6Addr hw hrest

theorem IsGap.takes (h : IsGap w rest) : Takes defines w rest none := by
  cases h with
  | blanks hne hw hrest => exact takes_blanks hne hw hrest
  | cppComment hbody => exact takes_cppComment hbody
  | cComment hbody => exact takes_cComment hbody

theorem lex_nil : lex defines line [] = [] := rfl

/-- A script is read as the tokens of its lexemes, each in its line. -/
theorem lex_laid (h : Laid defines line text tokens) : lex defines line text = tokens := by
  induction h with
  | nil => exact lex_nil
  | lexeme hlexeme _ ih => rw [hlexeme.takes.lex_token, ih]
  | gap hgap _ ih => rw [hgap.takes.lex_ignored, ih]

/-- A string in the first line, with a comment behind it, and a character in the second one. -/
theorem lex_laid_string : lex [] 1 ['"', 'a', '"', '/', '/', '\n', ';'] =
    [(.string ['a'], 1), (.character ';', 2)] := by
  have hsemicolon : Laid [] 2 [';'] [(.character ';', 2)] :=
    @Laid.lexeme [] 2 [';'] [] _ _ (.single (by unfold IsSingle; decide)) .nil
  have hcomment : Laid [] 1 ['/', '/', '\n', ';'] [(.character ';', 2)] :=
    @Laid.gap [] 1 ['/', '/', '\n'] [';'] _ (.cppComment List.not_mem_nil) hsemicolon
  have hescaped : Escaped '"' ['a'] :=
    Escaped.cons (fun u v hsplit => by simp at hsplit) (by decide)
  exact lex_laid (@Laid.lexeme [] 1 ['"', 'a', '"'] ['/', '/', '\n', ';'] _ _
    (.string hescaped (by decide) (by decide)) hcomment)

theorem Takes.lex_line (h : Takes defines w rest (some token)) (hw : '\n' ∉ w) :
    lex defines line (w ++ rest) = (token, line) :: lex defines line rest := by
  rw [h.lex_token, List.count_eq_zero_of_not_mem hw, Nat.add_zero]

theorem lex_digits (hn : n ≤ Numeral.LONG_MAX) (hends : Ends rest) :
    lex defines line (Nat.toDigits 10 n ++ rest) =
      (.integer n, line) :: lex defines line rest := by
  have htakes : Takes defines (numeral false n) rest (some (.integer n)) := takes_integer hn hends
  refine htakes.lex_line fun hmem => ?_
  exact absurd (isDigit_of_mem_toDigits _ hmem) (by decide)

theorem lex_single {c : Char} (hc : IsSingle c) :
    lex defines line (c :: rest) = (.character c, line) :: lex defines line rest := by
  have htakes : Takes defines [c] rest (some (.character c)) := takes_single hc
  refine htakes.lex_line fun hmem => ?_
  obtain rfl := List.mem_singleton.mp hmem
  exact absurd hc.2.1 (by decide)

theorem HasColons.two_le_count (h : HasColons w) : 2 ≤ w.count ':' := by
  rcases h with htwo | hseven
  · exact htwo.sublist.count_le ':'
  · omega

/-- A number behind a colon is not the rest of an address. -/
theorem ends_colon (b : Nat) {c : Char} (hc : isPlain c = false) :
    Ends (':' :: (Nat.toDigits 10 b ++ c :: rest)) := by
  intro d hd
  obtain rfl := Option.some.inj hd
  refine .inr ⟨rfl, fun hcolons => ?_⟩
  have hdigits : ∀ d ∈ ':' :: Nat.toDigits 10 b, isPlain d = true := by
    refine List.forall_mem_cons.mpr ⟨by decide, fun d hd => ?_⟩
    exact (simple_of_isDigit (isDigit_of_mem_toDigits d hd)).1
  have hplain : (':' :: (Nat.toDigits 10 b ++ c :: rest)).takeWhile isPlain =
      ':' :: Nat.toDigits 10 b := by
    rw [← List.cons_append, List.takeWhile_append_of_pos hdigits,
      List.takeWhile_cons_of_neg (by simp [hc]), List.append_nil]
  have hcount : (Nat.toDigits 10 b).count ':' = 0 :=
    List.count_eq_zero_of_not_mem fun hmem =>
      absurd (isDigit_of_mem_toDigits _ hmem) (by decide)
  have htwo := (hplain ▸ hcolons).two_le_count
  rw [List.count_cons_self, hcount] at htwo
  omega

/-- The sequence numbers of a packet are read as numbers, not as an IPv6 address. -/
theorem lex_sequence (ha : a ≤ Numeral.LONG_MAX) (hb : b ≤ Numeral.LONG_MAX)
    (hn : n ≤ Numeral.LONG_MAX) :
    lex defines line (Nat.toDigits 10 a ++ ':' :: (Nat.toDigits 10 b ++ '(' ::
        (Nat.toDigits 10 n ++ ')' :: rest))) =
      [(.integer a, line), (.character ':', line), (.integer b, line), (.character '(', line),
        (.integer n, line), (.character ')', line)] ++ lex defines line rest := by
  have hopen : IsSingle '(' := by unfold IsSingle; decide
  have hclose : IsSingle ')' := by unfold IsSingle; decide
  have hends {c : Char} {rest : List Char} (hc : IsSingle c) : Ends (c :: rest) := by
    intro d hd
    obtain rfl := Option.some.inj hd
    exact .inl hc.1
  have hcolon : Takes defines [':'] (Nat.toDigits 10 b ++ '(' :: (Nat.toDigits 10 n ++ ')' :: rest))
      (some (.character ':')) := by
    refine takes_colon ?_
    have hne : Nat.toDigits 10 b ≠ [] := Nat.toDigits_ne_nil
    obtain ⟨d, digits, hdigits⟩ := List.exists_cons_of_ne_nil hne
    have hd : isDigit d = true := isDigit_of_mem_toDigits d (hdigits ▸ List.mem_cons_self)
    rw [hdigits]
    rintro hhead
    obtain rfl := Option.some.inj hhead
    exact absurd hd (by decide)
  calc
    _ = (.integer a, line) :: lex defines line ([':'] ++ (Nat.toDigits 10 b ++ '(' ::
        (Nat.toDigits 10 n ++ ')' :: rest))) := lex_digits ha (ends_colon b hopen.1)
    _ = (.integer a, line) :: (.character ':', line) :: lex defines line (Nat.toDigits 10 b ++
        '(' :: (Nat.toDigits 10 n ++ ')' :: rest)) := by rw [hcolon.lex_line (by decide)]
    _ = _ := by
      rw [lex_digits hb (hends hopen), lex_single hopen, lex_digits hn (hends hclose),
        lex_single hclose]
      rfl

theorem lex_sequence_hello : lex [] 1 "1:1001(1000) ack".toList =
    [(.integer 1, 1), (.character ':', 1), (.integer 1001, 1), (.character '(', 1),
      (.integer 1000, 1), (.character ')', 1)] ++ lex [] 1 " ack".toList :=
  lex_sequence (a := 1) (b := 1001) (n := 1000) (by decide) (by decide) (by decide)

end Scripts

end QoSMos.Lexer
