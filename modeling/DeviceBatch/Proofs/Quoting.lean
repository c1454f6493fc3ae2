import DeviceBatch.Toml.Quoted

/-!
# Written strings are read back

`quote` writes a text in one of five ways, and `readString` reads each of them back as the text
(`readString_quote`).

Between quotes the reader takes one character at a time (`readBasic_escapeChar`). On several lines
it cannot do that with a quote, because three of them end the string: a quote is read only once it
is known what follows. So the laws of these forms speak of a text with a run of up to two marks in
front of it, which are not read yet.
-/

namespace DeviceBatch.Toml

/-! ## Characters -/

theorem plain_of_not_isCode {c : Char} (h : isCode c = false) : isPlain c = true ∨ c = '\n' := by
  unfold isCode at h
  unfold isPlain
  by_cases hn : c = '\n'
  · exact .inr hn
  by_cases ht : c = '\t'
  · exact .inl (by simp [ht])
  left
  have hle : ¬ c < ' ' := by
    intro hlt
    simp [hlt, hn, ht] at h
  have hdel : c ≠ '\x7f' := by
    rintro rfl
    simp at h
  simp [Char.not_lt.mp hle, hdel]

theorem plain_or_newline {c : Char} (h : isCode c = false) : (isPlain c || c == '\n') = true := by
  rcases plain_of_not_isCode h with hp | rfl
  · rw [hp, Bool.true_or]
  · rfl

theorem plain_ne_newline {c : Char} (h : isCode c = false) (hn : c ≠ '\n') : isPlain c = true :=
  (plain_of_not_isCode h).resolve_right hn

/-- A control character is one of the first 32 or the last of the first 128. -/
theorem toNat_lt_of_isCode {c : Char} (h : isCode c = true) : c.toNat < 128 := by
  simp only [isCode, Bool.and_eq_true, Bool.or_eq_true, decide_eq_true_eq, beq_iff_eq] at h
  rcases h.1.1 with hlt | rfl
  · have hnat : c.toNat < ' '.toNat := hlt
    exact Nat.lt_trans hnat (by decide)
  · decide

theorem charOfHex?_hexDigit {n : Nat} (h : n < 128) :
    charOfHex? ['0', '0', hexDigit (n / 16), hexDigit (n % 16)] = some (Char.ofNat n) := by
  have hall : ∀ n < 128, charOfHex? ['0', '0', hexDigit (n / 16), hexDigit (n % 16)] =
      some (Char.ofNat n) := by decide +kernel
  exact hall n h

/-! ## Escapes -/

/-- A letter that can stand after a backslash which does not end its line. -/
def isEscapeMark (c : Char) : Bool := c == 'u' || (letterEscape? c).isSome

theorem continueLine_of_isEscapeMark {c : Char} (h : isEscapeMark c) (t : List Char) :
    continueLine (c :: t) = none := by
  have hc : c ≠ ' ' ∧ c ≠ '\t' ∧ c ≠ '\n' ∧ c ≠ '\r' := by
    refine ⟨?_, ?_, ?_, ?_⟩ <;> rintro rfl <;> exact absurd h (by decide)
  have hline : (c :: t).dropWhile (fun c => c == ' ' || c == '\t') = c :: t :=
    List.dropWhile_cons_of_neg (by simp [hc.1, hc.2.1])
  have hnext : dropLineBreak (c :: t) = c :: t := by
    unfold dropLineBreak
    split <;> simp_all
  unfold continueLine
  dsimp only
  rw [hline, hnext]
  exact if_neg (Nat.lt_irrefl _)

/-- A character other than a quote is written as itself or by an escape. -/
theorem escapeChar_cases {c : Char} (hq : c ≠ '"') :
    (∃ mark t, escapeChar c = '\\' :: mark :: t ∧ isEscapeMark mark ∧
      ∀ rest, readEscape (mark :: t ++ rest) = some (c, rest)) ∨
    escapeChar c = [c] ∧ c ≠ '\\' ∧ isCode c = false := by
  unfold escapeChar
  split
  iterate 5 exact .inl ⟨_, _, rfl, by decide, fun _ => rfl⟩
  · next hb _ _ _ hs =>
    split
    · next hcode =>
      refine .inl ⟨_, _, rfl, by decide, fun rest => ?_⟩
      have hchar := charOfHex?_hexDigit (toNat_lt_of_isCode hcode)
      rw [Char.ofNat_toNat] at hchar
      simp only [List.cons_append, List.nil_append, readEscape, hchar, Option.map_some]
    · next hcode => exact .inr ⟨rfl, hs, Bool.eq_false_iff.mpr hcode⟩

/-! ## Between quotes on one line -/

theorem readBasic_escape {s rest : List Char} {c : Char} (h : readEscape s = some (c, rest)) :
    readBasic ('\\' :: s) = push c (readBasic rest) := by
  rw [readBasic]
  split <;> simp_all

theorem readBasic_plain {c : Char} (hq : c ≠ '"') (hb : c ≠ '\\') (hp : isPlain c = true)
    (t : List Char) : readBasic (c :: t) = push c (readBasic t) := by
  rw [readBasic]
  · rw [if_pos hp]
  · exact hq
  · exact hb

theorem readBasic_escapeChar {c : Char} (hq : c ≠ '"') (hn : c ≠ '\n') (t : List Char) :
    readBasic (escapeChar c ++ t) = push c (readBasic t) := by
  rcases escapeChar_cases hq with ⟨mark, tail, heq, -, hread⟩ | ⟨heq, hb, hcode⟩
  · rw [heq]
    exact readBasic_escape (hread t)
  · rw [heq]
    exact readBasic_plain hq hb (plain_ne_newline hcode hn) t

/-- A text on one line that is escaped is read back. -/
theorem readBasic_escapeFrom {s : List Char} (hn : '\n' ∉ s) (rest : List Char) :
    readBasic (escapeFrom 0 0 s ++ '"' :: rest) = some (s, rest) := by
  induction s with
  | nil => simp [escapeFrom, readBasic]
  | cons c s ih =>
    have ih := ih fun h => hn (List.mem_cons_of_mem _ h)
    have hc : c ≠ '\n' := fun h => hn (h ▸ List.mem_cons_self)
    by_cases hq : c = '"'
    · subst hq
      show readBasic ('\\' :: '"' :: (escapeFrom 0 0 s ++ '"' :: rest)) = _
      rw [readBasic_escape rfl, ih]
      rfl
    · rw [escapeFrom, List.append_assoc, readBasic_escapeChar hq hc, ih]
      · rfl
      · exact hq

/-! ## Between quotes on several lines -/

theorem readBasicLines_escape {s rest : List Char} {mark c : Char} (hm : isEscapeMark mark)
    (h : readEscape (mark :: s) = some (c, rest)) :
    readBasicLines ('\\' :: mark :: s) = push c (readBasicLines rest) := by
  rw [readBasicLines]
  split
  · next hline => cases (continueLine_of_isEscapeMark hm s).symm.trans hline
  · split <;> simp_all

theorem readBasicLines_plain {c : Char} (hq : c ≠ '"') (hb : c ≠ '\\') (hc : isCode c = false)
    (t : List Char) : readBasicLines (c :: t) = push c (readBasicLines t) := by
  have hr : c ≠ '\r' := by
    rintro rfl
    cases hc
  rw [readBasicLines]
  · rw [if_pos (plain_or_newline hc)]
  · exact fun _ h => absurd h hq
  · exact hb
  · exact fun _ h => absurd h hr

theorem readBasicLines_escapeChar {c : Char} (hq : c ≠ '"') (t : List Char) :
    readBasicLines (escapeChar c ++ t) = push c (readBasicLines t) := by
  rcases escapeChar_cases hq with ⟨mark, tail, heq, hm, hread⟩ | ⟨heq, hb, hcode⟩
  · rw [heq]
    exact readBasicLines_escape hm (hread t)
  · rw [heq]
    exact readBasicLines_plain hq hb hcode t

/-- Several characters before a text that was read. -/
def pushAll (cs : List Char) (read : Option (List Char × List Char)) :
    Option (List Char × List Char) := read.map fun (text, rest) => (cs ++ text, rest)

theorem replicate_append_cons {α : Type} (n : Nat) (a : α) (t : List α) :
    List.replicate n a ++ a :: t = a :: (List.replicate n a ++ t) := by
  rw [List.append_cons, ← List.replicate_succ', List.replicate_succ, List.cons_append]

/-- What follows the closing marks is not a mark, so all marks before it belong to the text. -/
theorem readTail_replicate {mark : Char} {run : Nat} (hrun : run ≤ 2) {rest : List Char}
    (hr : rest.head? ≠ some mark) :
    readTail mark (List.replicate run mark ++ rest) = (List.replicate run mark, rest) := by
  obtain rfl | rfl | rfl : run = 0 ∨ run = 1 ∨ run = 2 := by omega
  all_goals
    cases rest with
    | nil => simp [readTail]
    | cons c rest =>
      have hc : c ≠ mark := fun h => hr (by rw [h]; rfl)
      cases rest <;> simp [readTail, hc]

/-- Up to two marks are read as such if no other follows. -/
theorem read_replicate {read : List Char → Option (List Char × List Char)} {mark : Char}
    (hmark : ∀ t, (∀ u, t ≠ mark :: mark :: u) → read (mark :: t) = push mark (read t))
    {run : Nat} (hrun : run ≤ 2) {t : List Char} (ht : t.head? ≠ some mark) :
    read (List.replicate run mark ++ t) = pushAll (List.replicate run mark) (read t) := by
  have hone : read (mark :: t) = push mark (read t) := hmark t fun u h => ht (by rw [h]; rfl)
  obtain rfl | rfl | rfl : run = 0 ∨ run = 1 ∨ run = 2 := by omega
  · show read t = pushAll [] (read t)
    cases read t <;> rfl
  · exact hone
  · show read (mark :: mark :: t) = _
    rw [hmark _ fun u h => ht (by rw [(List.cons.inj h).2]; rfl), hone]
    cases read t <;> rfl

theorem readBasicLines_close (t : List Char) :
    readBasicLines ('"' :: '"' :: '"' :: t) = some (readTail '"' t) := by
  rw [readBasicLines]

theorem readBasicLines_quote {t : List Char} (h : ∀ u, t ≠ '"' :: '"' :: u) :
    readBasicLines ('"' :: t) = push '"' (readBasicLines t) := by
  rw [readBasicLines]
  · rfl
  · exact fun u _ heq => h u heq
  · exact fun heq => absurd heq (by decide)
  · exact fun u heq => absurd heq (by decide)

theorem head?_escapeChar_ne {c : Char} (hq : c ≠ '"') (t : List Char) :
    (escapeChar c ++ t).head? ≠ some '"' := by
  rcases escapeChar_cases hq with ⟨mark, tail, heq, -, -⟩ | ⟨heq, -, -⟩ <;> rw [heq]
  · exact fun h => absurd (Option.some.inj h) (by decide)
  · exact fun h => hq (Option.some.inj h)

/-- A text on several lines that is escaped is read back, together with the quotes in front of it
that are not read yet. -/
theorem readBasicLines_escapeFrom {s : List Char} {run : Nat} (hrun : run ≤ 2) {rest : List Char}
    (hr : rest.head? ≠ some '"') :
    readBasicLines (List.replicate run '"' ++ (escapeFrom 2 run s ++ '"' :: '"' :: '"' :: rest)) =
      some (List.replicate run '"' ++ s, rest) := by
  induction s generalizing run with
  | nil =>
    rw [escapeFrom, List.nil_append, List.append_nil, replicate_append_cons, replicate_append_cons,
      replicate_append_cons, readBasicLines_close, readTail_replicate hrun hr]
  | cons c s ih =>
    have hnext := ih (Nat.zero_le 2)
    rw [List.replicate_zero, List.nil_append, List.nil_append] at hnext
    by_cases hq : c = '"'
    · subst hq
      rw [escapeFrom]
      split
      · next hlt =>
        have hmore := @ih (run + 1) hlt
        rw [List.replicate_succ', List.append_assoc, List.append_assoc] at hmore
        exact hmore
      · rw [List.cons_append, List.cons_append, read_replicate (fun _ => readBasicLines_quote) hrun
          (t := '\\' :: _) (fun h => absurd (Option.some.inj h) (by decide)),
          readBasicLines_escape (by decide) rfl, hnext]
        rfl
    · rw [escapeFrom, List.append_assoc, read_replicate (fun _ => readBasicLines_quote) hrun
        (head?_escapeChar_ne hq _),
        readBasicLines_escapeChar hq, hnext]
      · rfl
      · exact hq

/-! ## Between apostrophes -/

/-- A text without apostrophes is read back from between them. -/
theorem readLiteral_append {s : List Char} (ha : '\'' ∉ s) (hp : ∀ c ∈ s, isPlain c = true)
    (rest : List Char) : readLiteral (s ++ '\'' :: rest) = some (s, rest) := by
  induction s with
  | nil => rfl
  | cons c s ih =>
    rw [List.cons_append, readLiteral, if_pos (hp c List.mem_cons_self),
      ih (fun h => ha (List.mem_cons_of_mem _ h)) fun c h => hp c (List.mem_cons_of_mem _ h)]
    · rfl
    · exact fun h => ha (h ▸ List.mem_cons_self)

theorem le_longestRunFrom (mark : Char) (run best : Nat) (s : List Char) :
    max run best ≤ longestRunFrom mark run best s := by
  induction s generalizing run best with
  | nil => exact Nat.le_refl _
  | cons c s ih =>
    rw [longestRunFrom]
    split
    · have := ih (run + 1) best
      omega
    · have := ih 0 (max run best)
      omega

theorem notMem_of_longestRun {mark : Char} {s : List Char} (h : longestRun mark s = 0) :
    mark ∉ s := by
  have hall : ∀ best, longestRunFrom mark 0 best s = 0 → mark ∉ s := by
    clear h
    induction s with
    | nil => exact fun _ _ => List.not_mem_nil
    | cons c s ih =>
      intro best h
      rw [longestRunFrom] at h
      split at h
      · have := le_longestRunFrom mark (0 + 1) best s
        omega
      · next hc =>
        rw [List.mem_cons, not_or]
        exact ⟨Ne.symm hc, ih _ h⟩
  exact hall 0 h

theorem readLiteralLines_plain {c : Char} (ha : c ≠ '\'') (hc : isCode c = false) (t : List Char) :
    readLiteralLines (c :: t) = push c (readLiteralLines t) := by
  rw [readLiteralLines]
  · rw [if_pos (plain_or_newline hc)]
  · exact fun _ h => absurd h ha
  · rintro _ rfl
    cases hc

theorem readLiteralLines_mark {t : List Char} (h : ∀ u, t ≠ '\'' :: '\'' :: u) :
    readLiteralLines ('\'' :: t) = push '\'' (readLiteralLines t) := by
  rw [readLiteralLines]
  · rfl
  · exact fun u _ heq => h u heq
  · exact fun u heq => absurd heq (by decide)

/-- A text on several lines with no three apostrophes in a row is read back, together with the
apostrophes in front of it that are not read yet. -/
theorem readLiteralLines_append {s : List Char} {run best : Nat}
    (hs : longestRunFrom '\'' run best s ≤ 2) (hcode : ∀ c ∈ s, isCode c = false)
    {rest : List Char} (hr : rest.head? ≠ some '\'') :
    readLiteralLines (List.replicate run '\'' ++ (s ++ '\'' :: '\'' :: '\'' :: rest)) =
      some (List.replicate run '\'' ++ s, rest) := by
  have hrun : run ≤ 2 := by
    have := le_longestRunFrom '\'' run best s
    omega
  induction s generalizing run best with
  | nil =>
    rw [List.nil_append, List.append_nil, replicate_append_cons, replicate_append_cons,
      replicate_append_cons, readLiteralLines, readTail_replicate hrun hr]
  | cons c s ih =>
    have hrest : ∀ c ∈ s, isCode c = false := fun c h => hcode c (List.mem_cons_of_mem _ h)
    rw [longestRunFrom] at hs
    split at hs
    · next hc =>
      subst hc
      have := le_longestRunFrom '\'' (run + 1) best s
      have hmore := ih hs hrest (by omega)
      rw [List.replicate_succ', List.append_assoc, List.append_assoc] at hmore
      exact hmore
    · next hc =>
      have hnext := ih hs hrest (Nat.zero_le 2)
      rw [List.replicate_zero, List.nil_append, List.nil_append] at hnext
      rw [List.cons_append, read_replicate (fun _ => readLiteralLines_mark) hrun
        (t := c :: _) (fun h => hc (Option.some.inj h)),
        readLiteralLines_plain hc (hcode c List.mem_cons_self), hnext]
      rfl

/-! ## All ways of writing -/

/-- The text does not go on with a quote or an apostrophe. -/
def Unquoted (rest : List Char) : Prop := rest.head? ≠ some '"' ∧ rest.head? ≠ some '\''

/-- An escaped text begins with its end, with an escape or with one of its characters. -/
theorem head?_escapeFrom {allowed : Nat} {s t : List Char} {d : Char}
    (h : (escapeFrom allowed 0 s ++ '"' :: t).head? = some d) :
    d = '"' ∨ d = '\\' ∨ d ∈ s ∧ isCode d = false := by
  cases s with
  | nil => exact .inl (Option.some.inj h).symm
  | cons c s =>
    by_cases hq : c = '"'
    · subst hq
      rw [escapeFrom] at h
      split at h
      · exact .inl (Option.some.inj h).symm
      · exact .inr (.inl (Option.some.inj h).symm)
    · rw [escapeFrom] at h
      · rcases escapeChar_cases hq with ⟨mark, tail, heq, -, -⟩ | ⟨heq, -, hcode⟩ <;> rw [heq] at h
        · exact .inr (.inl (Option.some.inj h).symm)
        · obtain rfl := Option.some.inj h
          exact .inr (.inr ⟨List.mem_cons_self, hcode⟩)
      · exact hq

theorem dropLineBreak_of_head? {t : List Char}
    (h : ∀ c, t.head? = some c → c ≠ '\n' ∧ c ≠ '\r') : dropLineBreak t = t := by
  unfold dropLineBreak
  split
  · exact absurd rfl (h _ rfl).1
  · exact absurd rfl (h _ rfl).2
  · rfl

/-- The line break after the opening mark is there if the text might begin with one. -/
theorem dropLineBreak_openingBreak {s t : List Char}
    (h : '\n' ∉ s → ∀ c, t.head? = some c → c ≠ '\n' ∧ c ≠ '\r') :
    dropLineBreak (openingBreak s ++ t) = t := by
  unfold openingBreak
  by_cases hn : '\n' ∈ s
  · rw [if_pos (List.contains_iff_mem.mpr hn)]
    rfl
  · rw [if_neg (mt List.contains_iff_mem.mp hn), List.nil_append]
    exact dropLineBreak_of_head? (h hn)

theorem readString_basic {s rest : List Char} (hn : '\n' ∉ s) (hr : Unquoted rest) :
    readString ('"' :: escapeFrom 0 0 s ++ ['"'] ++ rest) = some (s, rest) := by
  rw [List.append_assoc, List.cons_append, List.singleton_append, readString]
  · exact readBasic_escapeFrom hn rest
  · intro u h
    cases s with
    | nil => exact hr.1 (by rw [(List.cons.inj h).2]; rfl)
    | cons c s =>
      by_cases hq : c = '"'
      · subst hq
        exact absurd (List.cons.inj h).1 (by decide)
      · rw [escapeFrom, List.append_assoc] at h
        · exact head?_escapeChar_ne hq _ (by rw [h]; rfl)
        · exact hq

theorem readString_literal {s rest : List Char} (ha : '\'' ∉ s) (hp : ∀ c ∈ s, isPlain c = true)
    (hr : Unquoted rest) : readString ('\'' :: s ++ ['\''] ++ rest) = some (s, rest) := by
  rw [List.append_assoc, List.cons_append, List.singleton_append, readString]
  · exact readLiteral_append ha hp rest
  · intro u h
    cases s with
    | nil => exact hr.2 (by rw [(List.cons.inj h).2]; rfl)
    | cons c s => exact ha ((List.cons.inj h).1 ▸ List.mem_cons_self)

theorem readString_basicLines {s opening rest : List Char}
    (hopening : opening = openingBreak s ∨ opening = ['\n']) (hr : Unquoted rest) :
    readString (['"', '"', '"'] ++ opening ++ escapeFrom 2 0 s ++ ['"', '"', '"'] ++ rest) =
      some (s, rest) := by
  have hbody := readBasicLines_escapeFrom (s := s) (Nat.zero_le 2) hr.1
  rw [List.replicate_zero, List.nil_append, List.nil_append] at hbody
  have hdrop : dropLineBreak (opening ++ (escapeFrom 2 0 s ++ '"' :: '"' :: '"' :: rest)) =
      escapeFrom 2 0 s ++ '"' :: '"' :: '"' :: rest := by
    rcases hopening with rfl | rfl
    · refine dropLineBreak_openingBreak fun hn c hc => ?_
      rcases head?_escapeFrom hc with rfl | rfl | ⟨hmem, hcode⟩
      · decide
      · decide
      · refine ⟨fun h => hn (h ▸ hmem), ?_⟩
        rintro rfl
        cases hcode
    · rfl
  simp only [List.append_assoc, List.cons_append, List.nil_append]
  rw [readString, hdrop, hbody]

theorem readString_literalLines {s rest : List Char} (hs : longestRun '\'' s ≤ 2)
    (hcode : ∀ c ∈ s, isCode c = false) (hr : Unquoted rest) :
    readString (['\'', '\'', '\''] ++ openingBreak s ++ s ++ ['\'', '\'', '\''] ++ rest) =
      some (s, rest) := by
  have hbody := readLiteralLines_append hs hcode hr.2
  rw [List.replicate_zero, List.nil_append, List.nil_append] at hbody
  have hdrop : dropLineBreak (openingBreak s ++ (s ++ '\'' :: '\'' :: '\'' :: rest)) =
      s ++ '\'' :: '\'' :: '\'' :: rest := by
    refine dropLineBreak_openingBreak fun hn c hc => ?_
    cases s with
    | nil =>
      obtain rfl := Option.some.inj hc
      decide
    | cons d s =>
      obtain rfl : d = c := Option.some.inj hc
      refine ⟨fun h => hn (h ▸ List.mem_cons_self), ?_⟩
      rintro rfl
      cases hcode _ List.mem_cons_self
  simp only [List.append_assoc, List.cons_append, List.nil_append]
  rw [readString, hdrop, hbody]

/-- A text that was written is read back, whatever follows but another mark. -/
theorem readString_quote (s : List Char) {rest : List Char} (hr : Unquoted rest) :
    readString (quote s ++ rest) = some (s, rest) := by
  have hcodes : s.any isCode = false → ∀ c ∈ s, isCode c = false := fun h c hc =>
    Bool.eq_false_iff.mpr (List.any_eq_false.mp h c hc)
  have hlines : s.contains '\n' = false → '\n' ∉ s := fun h hn =>
    Bool.eq_false_iff.mp h (List.contains_iff_mem.mpr hn)
  have hplain : s.any isCode = false → s.contains '\n' = false → ∀ c ∈ s, isPlain c = true :=
    fun hc hn c hmem => plain_ne_newline (hcodes hc c hmem) fun h => hlines hn (h ▸ hmem)
  unfold quote
  simp only [Bool.and_eq_true, Bool.not_eq_true', beq_iff_eq, decide_eq_true_eq]
  split
  · next h => exact readString_basic (hlines h.2) hr
  split
  · next h => exact readString_literal (notMem_of_longestRun h.1.2) (hplain h.1.1 h.2) hr
  split
  · exact readString_basicLines (.inl rfl) hr
  split
  · next h => exact readString_literalLines h.2 (hcodes h.1) hr
  split
  · exact readString_basicLines (.inr rfl) hr
  · next h => exact readString_basic (hlines (Bool.eq_false_iff.mpr h)) hr

end DeviceBatch.Toml
