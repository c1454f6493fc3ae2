import DeviceBatch.Proofs.Named
import DeviceBatch.Proofs.Quoting
import DeviceBatch.Toml.Printer

/-!
# Written documents are read back

The text of a document is read back as the table of its values (`Table.ofText?_render`), if all its
numbers can be written and its keys are bare and distinct.

The proof follows the reader: the token, the value, the key, the line, the lines, and then the
statements that the lines make.
-/

namespace DeviceBatch.Toml

/-! ## Numbers -/

theorem isDigit_of_mem_toDigits {n : Nat} {c : Char} (h : c ∈ Nat.toDigits 10 n) :
    c.isDigit = true :=
  Nat.isDigit_of_mem_toDigits (by decide) (by decide) h

/-- Only the number 0 is written with a zero in front. -/
theorem toDigits_zero_cons {n : Nat} {s : List Char} (h : Nat.toDigits 10 n = '0' :: s) :
    n = 0 := by
  induction n using Nat.strongRecOn generalizing s with
  | ind n ih =>
    by_cases hn : n < 10
    · rw [Nat.toDigits_of_lt_base hn] at h
      have hall : ∀ n < 10, n.digitChar = '0' → n = 0 := by decide
      exact hall n hn (List.cons.inj h).1
    · have hstep := Nat.toDigits_of_base_le (b := 10) (n := n) (by decide) (by omega)
      cases hd : Nat.toDigits 10 (n / 10) with
      | nil => exact absurd hd Nat.toDigits_ne_nil
      | cons c t =>
        rw [hstep, hd, List.cons_append] at h
        rw [(List.cons.inj h).1] at hd
        have := ih (n / 10) (by omega) hd
        omega

theorem digitsFrom_eq_appendDigits? {base n : Nat} {s : List Char} (h : '_' ∉ s) :
    digitsFrom base n s = Text.appendDigits? base n s := by
  induction s generalizing n with
  | nil => rfl
  | cons c s ih =>
    have ih := fun n => ih (n := n) fun hmem => h (List.mem_cons_of_mem _ hmem)
    rw [digitsFrom]
    · unfold Text.appendDigits?
      rw [List.foldlM_cons]
      cases Text.digitValue? base c with
      | none => rfl
      | some d => exact ih _
    · exact fun _ _ hc _ => h (hc ▸ List.mem_cons_self)

theorem digits?_eq_ofDigits? {base : Nat} {s : List Char} (hs : s ≠ []) (h : '_' ∉ s) :
    digits? base s = Text.ofDigits? base s := by
  cases s with
  | nil => exact absurd rfl hs
  | cons c s =>
    rw [digits?, Text.ofDigits?, Text.appendDigits?, List.foldlM_cons]
    cases Text.digitValue? base c with
    | none => rfl
    | some d =>
      show digitsFrom base d s = Text.appendDigits? base (base * 0 + d) s
      rw [Nat.mul_zero, Nat.zero_add]
      exact digitsFrom_eq_appendDigits? fun hmem => h (List.mem_cons_of_mem _ hmem)

/-- A number that is written in decimal digits. -/
theorem decimal?_toDigits (n : Nat) : decimal? (Nat.toDigits 10 n) = some n := by
  unfold decimal?
  split
  · next h => rw [toDigits_zero_cons h]
  · next hlong h =>
    cases toDigits_zero_cons h
    cases h
    exact absurd rfl hlong
  · rw [digits?_eq_ofDigits? Nat.toDigits_ne_nil fun h =>
      absurd (isDigit_of_mem_toDigits h) (by decide), Text.ofDigits?_toDigits]

theorem word?_of_le {n : Nat} (h : n ≤ largestNumber) : word? n = some (n : Int) := by
  unfold largestNumber at h
  have hpos : 0 < wordBound := by decide
  exact if_pos ⟨by omega, by omega⟩

theorem notMem_of_isDigit {s : List Char} (h : ∀ c ∈ s, c.isDigit = true) {c : Char}
    (hc : c.isDigit = false) : c ∉ s := fun hmem => by
  rw [h c hmem] at hc
  cases hc

/-- Digits alone are read as a decimal number. -/
theorem integer?_of_isDigit {s : List Char} (h : ∀ c ∈ s, c.isDigit = true) :
    integer? s = (decimal? s).bind fun n => word? n := by
  have hsign : splitSign s = (false, s) := by
    unfold splitSign
    split
    · exact absurd List.mem_cons_self (notMem_of_isDigit h (c := '-') rfl)
    · exact absurd List.mem_cons_self (notMem_of_isDigit h (c := '+') rfl)
    · rfl
  unfold integer?
  split
  · exact absurd (by simp) (notMem_of_isDigit h (c := 'x') rfl)
  · exact absurd (by simp) (notMem_of_isDigit h (c := 'o') rfl)
  · exact absurd (by simp) (notMem_of_isDigit h (c := 'b') rfl)
  · rw [hsign]
    rfl

/-- A number that can be written is read back. -/
theorem integer?_toDigits {n : Nat} (h : n ≤ largestNumber) :
    integer? (Nat.toDigits 10 n) = some (n : Int) := by
  rw [integer?_of_isDigit fun _ => isDigit_of_mem_toDigits, decimal?_toDigits, Option.bind_some,
    word?_of_le h]

/-! ## Tokens -/

/-- A point in time has a mark between its digits. -/
theorem isMoment_of_isDigit {s : List Char} (h : ∀ c ∈ s, c.isDigit = true) :
    isMoment s = false := by
  have hdate : isDate s = false := by
    unfold isDate
    split
    · exact absurd (by simp) (notMem_of_isDigit h (c := '-') rfl)
    · rfl
  have htime : isTime s = false := by
    unfold isTime isTimeThen
    split
    · exact absurd (by simp) (notMem_of_isDigit h (c := ':') rfl)
    · rfl
  have hboth : isDateTime s = false := by
    unfold isDateTime
    split
    · next heq =>
      exact absurd (List.mem_of_mem_drop (heq ▸ List.mem_cons_self))
        (notMem_of_isDigit h (c := 'T') rfl)
    · next heq =>
      exact absurd (List.mem_of_mem_drop (heq ▸ List.mem_cons_self))
        (notMem_of_isDigit h (c := 't') rfl)
    · rfl
  unfold isMoment
  rw [hdate, htime, hboth]
  rfl

theorem tokenValue?_toDigits {n : Nat} (h : n ≤ largestNumber) :
    tokenValue? (Nat.toDigits 10 n) = some (.integer n) := by
  have hletter : ∀ (c : Char) {s : List Char}, c.isDigit = false → Nat.toDigits 10 n ≠ c :: s :=
    fun c s hc heq => notMem_of_isDigit (fun _ => isDigit_of_mem_toDigits) hc
      (heq ▸ List.mem_cons_self)
  unfold tokenValue?
  rw [if_neg (hletter 't' rfl), if_neg (hletter 'f' rfl),
    isMoment_of_isDigit fun _ => isDigit_of_mem_toDigits, integer?_toDigits h]
  rfl

/-- A token is all up to the end of the line. -/
theorem readToken_append {token : List Char} (h : ∀ c ∈ token, isTokenChar c = true)
    (rest : List Char) :
    readToken (token ++ '\n' :: rest) = (tokenValue? token).map (·, '\n' :: rest) := by
  have hend : isTokenChar '\n' = false := by decide
  unfold readToken
  dsimp only
  rw [List.takeWhile_append_of_pos h, List.dropWhile_append_of_pos h,
    List.takeWhile_cons_of_neg (by rw [hend]; exact Bool.false_ne_true),
    List.dropWhile_cons_of_neg (by rw [hend]; exact Bool.false_ne_true), List.append_nil]
  rfl

/-! ## Values -/

theorem readScalar_of_readString {s text rest : List Char} (h : readString s = some (text, rest)) :
    readScalar s = some (.string (.ofList text), rest) := by
  have hread : (readString s).map (fun r => (Value.string (.ofList r.1), r.2)) =
      some (.string (.ofList text), rest) := by
    rw [h]
    rfl
  unfold readScalar
  split
  · exact hread
  · exact hread
  · next hq ha =>
    unfold readString at h
    split at h
    · exact absurd rfl (hq _)
    · exact absurd rfl (hq _)
    · exact absurd rfl (ha _)
    · exact absurd rfl (ha _)
    · cases h

theorem isTokenChar_of_isDigit {c : Char} (h : c.isDigit = true) : isTokenChar c = true := by
  simp [isTokenChar, Char.isAlphanum, h]

/-- A plain value at the end of its line is read back. -/
theorem readScalar_render {p : Plain} (h : p.isWritable) (rest : List Char) :
    readScalar (p.render ++ '\n' :: rest) = some (p.toValue, '\n' :: rest) := by
  have hbreak : Unquoted ('\n' :: rest) :=
    ⟨fun h => absurd (Option.some.inj h) (by decide), fun h => absurd (Option.some.inj h) (by decide)⟩
  have htoken : ∀ token : List Char, token ≠ [] → (∀ c ∈ token, isTokenChar c = true) →
      readScalar (token ++ '\n' :: rest) = (tokenValue? token).map (·, '\n' :: rest) := by
    intro token hne htok
    rw [← readToken_append htok]
    cases token with
    | nil => exact absurd rfl hne
    | cons c token =>
      have hc := htok c List.mem_cons_self
      rw [List.cons_append, readScalar]
      · rintro _ heq
        cases heq
        cases hc
      · rintro _ heq
        cases heq
        cases hc
  cases p with
  | text s =>
    rw [Plain.render, readScalar_of_readString (readString_quote s.toList hbreak),
      String.ofList_toList]
    rfl
  | number n =>
    rw [Plain.render, htoken _ Nat.toDigits_ne_nil fun c hc =>
      isTokenChar_of_isDigit (isDigit_of_mem_toDigits hc),
      tokenValue?_toDigits (of_decide_eq_true h)]
    rfl
  | flag b =>
    cases b
    · exact htoken ['f', 'a', 'l', 's', 'e'] (by decide) (List.all_eq_true.mp (by decide))
    · exact htoken ['t', 'r', 'u', 'e'] (by decide) (List.all_eq_true.mp (by decide))

/-- No value without parts begins with the character. -/
theorem readScalar_eq_none {c : Char} (hq : c ≠ '"') (ha : c ≠ '\'') (ht : isTokenChar c = false)
    (s : List Char) : readScalar (c :: s) = none := by
  have hnone : tokenValue? [] = none := by decide +kernel
  have hneg : ¬ isTokenChar c = true := Bool.eq_false_iff.mp ht
  rw [readScalar]
  · unfold readToken
    dsimp only
    rw [List.takeWhile_cons_of_neg hneg, List.dropWhile_cons_of_neg hneg, hnone]
    split <;> rfl
  · exact fun _ h => hq (List.cons.inj h).1
  · exact fun _ h => ha (List.cons.inj h).1

theorem readValue_of_readScalar {s : List Char} {r : Value × List Char}
    (h : readScalar s = some r) (depth : Nat) : readValue depth s = some r := by
  cases depth with
  | zero => exact h
  | succ depth =>
    unfold readValue
    split
    · cases (readScalar_eq_none (by decide) (by decide) (by decide) _).symm.trans h
    · cases (readScalar_eq_none (by decide) (by decide) (by decide) _).symm.trans h
    · exact h

theorem dropBlanks_of_readScalar {s : List Char} {r : Value × List Char}
    (h : readScalar s = some r) : dropBlanks s = s := by
  cases s with
  | nil => rfl
  | cons c s =>
    refine List.dropWhile_cons_of_neg fun hc => ?_
    simp only [isBlankInLine, Bool.or_eq_true, beq_iff_eq] at hc
    rcases hc with rfl | rfl
    · cases (readScalar_eq_none (by decide) (by decide) (by decide) _).symm.trans h
    · cases (readScalar_eq_none (by decide) (by decide) (by decide) _).symm.trans h

/-! ## Keys -/

/-- The key can be written without quotes. -/
def IsBare (key : String) : Prop := key.toList ≠ [] ∧ ∀ c ∈ key.toList, isBareKeyChar c = true

instance (key : String) : Decidable (IsBare key) :=
  decidable_of_iff (key.toList ≠ [] ∧ key.toList.all isBareKeyChar = true)
    (and_congr_right' List.all_eq_true)

theorem dropBlanks_cons {c : Char} (h : isBlankInLine c = false) (s : List Char) :
    dropBlanks (c :: s) = c :: s :=
  List.dropWhile_cons_of_neg (Bool.eq_false_iff.mp h)

theorem ne_of_isBareKeyChar {c d : Char} (h : isBareKeyChar c = true)
    (hd : isBareKeyChar d = false) : c ≠ d := by
  rintro rfl
  rw [h] at hd
  cases hd

/-- A bare key begins with one of its characters, which is no mark. -/
theorem IsBare.eq_cons {key : String} (h : IsBare key) :
    ∃ c s, key.toList = c :: s ∧ isBareKeyChar c = true := by
  cases hkey : key.toList with
  | nil => exact absurd hkey h.1
  | cons c s => exact ⟨c, s, rfl, h.2 c (hkey ▸ List.mem_cons_self)⟩

theorem isBlankInLine_of_isBareKeyChar {c : Char} (h : isBareKeyChar c = true) :
    isBlankInLine c = false := by
  simp [isBlankInLine, ne_of_isBareKeyChar h (d := ' ') (by decide),
    ne_of_isBareKeyChar h (d := '\t') (by decide)]

theorem readSimpleKey_bare {key : String} (h : IsBare key) {c : Char} {rest : List Char}
    (hc : isBareKeyChar c = false) :
    readSimpleKey (key.toList ++ c :: rest) = some (key.toList, c :: rest) := by
  have htake : (key.toList ++ c :: rest).takeWhile isBareKeyChar = key.toList := by
    rw [List.takeWhile_append_of_pos h.2, List.takeWhile_cons_of_neg (Bool.eq_false_iff.mp hc),
      List.append_nil]
  have hdrop : (key.toList ++ c :: rest).dropWhile isBareKeyChar = c :: rest := by
    rw [List.dropWhile_append_of_pos h.2, List.dropWhile_cons_of_neg (Bool.eq_false_iff.mp hc)]
  obtain ⟨d, s, hkey, hd⟩ := h.eq_cons
  rw [readSimpleKey, htake, hdrop, hkey]
  · rw [hkey]
    rintro _ heq
    exact ne_of_isBareKeyChar hd (by decide) (List.cons.inj heq).1
  · rw [hkey]
    rintro _ heq
    exact ne_of_isBareKeyChar hd (by decide) (List.cons.inj heq).1

/-- A bare key is read as one part, up to the mark that follows it. -/
theorem readKey_bare {key : String} (h : IsBare key) {c : Char} {rest : List Char}
    (hc : isBareKeyChar c = false) {mark : Char} {after : List Char}
    (hmark : dropBlanks (c :: rest) = mark :: after) (hdot : mark ≠ '.') :
    readKey (key.toList ++ c :: rest) = some ([key], mark :: after) := by
  have hblank : dropBlanks (key.toList ++ c :: rest) = key.toList ++ c :: rest := by
    obtain ⟨d, s, hkey, hd⟩ := h.eq_cons
    rw [hkey]
    exact dropBlanks_cons (isBlankInLine_of_isBareKeyChar hd) _
  have hparts : readKeyParts (key.toList ++ c :: rest) = some ([key], mark :: after) := by
    rw [readKeyParts, hblank, readSimpleKey_bare h hc]
    dsimp only
    rw [hmark, String.ofList_toList]
    split
    · next heq => exact absurd (List.cons.inj heq).1 hdot
    · rfl
  rw [readKey, hparts]
  rfl

/-! ## Lines -/

/-- What a line says under which a value is written. -/
def assign (entry : String × Plain) : Statement := .assign [entry.1] entry.2.toValue

theorem renderEntry_eq_cons {entry : String × Plain} (hkey : IsBare entry.1) :
    ∃ c s, renderEntry entry = c :: s ∧ isBareKeyChar c = true := by
  obtain ⟨c, s, hcons, hc⟩ := hkey.eq_cons
  unfold renderEntry
  rw [hcons]
  exact ⟨c, _, rfl, hc⟩

theorem readPair_renderEntry {entry : String × Plain} (hkey : IsBare entry.1)
    (hvalue : entry.2.isWritable) (depth : Nat) (rest : List Char) :
    readPair (readValue depth) (renderEntry entry ++ rest) =
      some (([entry.1], entry.2.toValue), '\n' :: rest) := by
  have hread := readScalar_render hvalue rest
  have htext : renderEntry entry ++ rest =
      entry.1.toList ++ ' ' :: '=' :: ' ' :: (entry.2.render ++ '\n' :: rest) := by
    simp [renderEntry]
  have hblank : dropBlanks (' ' :: (entry.2.render ++ '\n' :: rest)) =
      entry.2.render ++ '\n' :: rest := dropBlanks_of_readScalar hread
  rw [htext, readPair, readKey_bare hkey (by decide) rfl (by decide)]
  show (readValue depth (dropBlanks (' ' :: (entry.2.render ++ '\n' :: rest)))).map _ = _
  rw [hblank, readValue_of_readScalar hread]
  rfl

theorem readLine_renderEntry {entry : String × Plain} (hkey : IsBare entry.1)
    (hvalue : entry.2.isWritable) (rest : List Char) :
    readLine (renderEntry entry ++ rest) = some (some (assign entry), rest) := by
  have hpair := readPair_renderEntry hkey hvalue (depthLimit - 1) rest
  obtain ⟨c, s, hcons, hc⟩ := renderEntry_eq_cons hkey
  rw [hcons, List.cons_append] at hpair ⊢
  have hmark : ∀ {d : Char} {t : List Char}, isBareKeyChar d = false → c :: (s ++ rest) ≠ d :: t :=
    fun hd heq => ne_of_isBareKeyChar hc hd (List.cons.inj heq).1
  unfold readLine
  dsimp only
  split
  iterate 5
    next heq => exact absurd heq (hmark (by decide))
  rw [hpair]
  rfl

theorem readLine_header {key : String} (hkey : IsBare key) (rest : List Char) :
    readLine ('[' :: (key.toList ++ ']' :: '\n' :: rest)) = some (some (.table [key]), rest) := by
  have hheader : readHeader [']'] (key.toList ++ ']' :: '\n' :: rest) =
      some ([key], '\n' :: rest) := by
    rw [readHeader, readKey_bare hkey (by decide) rfl (by decide)]
    rfl
  obtain ⟨c, s, hcons, hc⟩ := hkey.eq_cons
  rw [hcons] at hheader ⊢
  rw [readLine]
  dsimp only
  rw [hheader]
  · rfl
  · intro u heq
    exact ne_of_isBareKeyChar hc (by decide) (List.cons.inj heq).1

/-- A line that was read comes first among the statements. -/
theorem readLines_of_readLine {c : Char} {s rest : List Char} {statement : Option Statement}
    (hc : isBlankInLine c = false) (h : readLine (c :: s) = some (statement, rest))
    (hlt : rest.length < (c :: s).length) :
    readLines (c :: s) = (readLines rest).map fun statements => statement.toList ++ statements := by
  rw [readLines, dropBlanks_cons hc]
  dsimp only
  rw [h]
  exact dif_pos hlt

theorem map_append_append {s t : List Statement} (r : Option (List Statement)) :
    (r.map (t ++ ·)).map (s ++ ·) = r.map (s ++ t ++ ·) := by
  cases r with
  | none => rfl
  | some r => exact congrArg some (List.append_assoc s t r).symm

/-- The values are read line by line. -/
theorem readLines_entries {entries : Entries} (hkeys : ∀ e ∈ entries, IsBare e.1)
    (hvalues : ∀ e ∈ entries, e.2.isWritable) (rest : List Char) :
    readLines (entries.flatMap renderEntry ++ rest) =
      (readLines rest).map (entries.map assign ++ ·) := by
  induction entries with
  | nil => cases h : readLines rest <;> simp [h]
  | cons e entries ih =>
    have ih := ih (fun e he => hkeys e (List.mem_cons_of_mem _ he))
      fun e he => hvalues e (List.mem_cons_of_mem _ he)
    have hkey := hkeys e List.mem_cons_self
    have hline := readLine_renderEntry hkey (hvalues e List.mem_cons_self)
      (entries.flatMap renderEntry ++ rest)
    obtain ⟨c, s, hcons, hc⟩ := renderEntry_eq_cons hkey
    rw [hcons, List.cons_append] at hline
    rw [List.flatMap_cons, List.append_assoc, hcons, List.cons_append,
      readLines_of_readLine (isBlankInLine_of_isBareKeyChar hc) hline
        (by simp only [List.length_append, List.length_cons]; omega), ih]
    exact map_append_append _

/-- What the lines of a section say. -/
def sectionStatements (part : String × Entries) : List Statement :=
  .table [part.1] :: part.2.map assign

theorem readLines_section {part : String × Entries} (hkey : IsBare part.1)
    (hkeys : ∀ e ∈ part.2, IsBare e.1) (hvalues : ∀ e ∈ part.2, e.2.isWritable)
    (rest : List Char) :
    readLines (renderSection part ++ rest) =
      (readLines rest).map (sectionStatements part ++ ·) := by
  have hline := readLine_header hkey (part.2.flatMap renderEntry ++ rest)
  have hrest := readLines_entries hkeys hvalues rest
  have htext : renderSection part ++ rest =
      '\n' :: '[' :: (part.1.toList ++ ']' :: '\n' :: (part.2.flatMap renderEntry ++ rest)) := by
    simp [renderSection]
  rw [htext, readLines_of_readLine (c := '\n') (by decide) rfl (Nat.lt_succ_self _),
    readLines_of_readLine (by decide) hline (by
      simp only [List.length_append, List.length_cons]
      omega), hrest, map_append_append, map_append_append]
  rfl

/-! ## Documents -/

/-- The values under their keys. -/
def values (entries : Entries) : Table := entries.map fun entry => (entry.1, entry.2.toValue)

namespace PlainDocument

/-- The table of a document. -/
def toTable (d : PlainDocument) : Table :=
  values d.top ++ d.sections.map fun part => (part.1, .table .header (values part.2))

/-- The keys can be written without quotes, and none is given twice. -/
structure WellFormed (d : PlainDocument) : Prop where
  bare : ∀ e ∈ d.top, IsBare e.1
  bareSections : ∀ part ∈ d.sections, IsBare part.1 ∧ ∀ e ∈ part.2, IsBare e.1
  distinct : (d.top.map Prod.fst ++ d.sections.map Prod.fst).Nodup
  distinctInSections : ∀ part ∈ d.sections, (part.2.map Prod.fst).Nodup

variable {d : PlainDocument}

theorem isWritable_iff : d.isWritable ↔
    (∀ e ∈ d.top, e.2.isWritable) ∧ ∀ part ∈ d.sections, ∀ e ∈ part.2, e.2.isWritable := by
  simp only [isWritable, Bool.and_eq_true, List.all_eq_true]

/-- The text of a document is read as the statements that it was written for. -/
theorem readLines_render (hd : d.WellFormed) (hw : d.isWritable) :
    readLines d.render.toList = some d.toStatements := by
  obtain ⟨htop, hparts⟩ := isWritable_iff.mp hw
  have hsections : ∀ sections : List (String × Entries), (∀ part ∈ sections, part ∈ d.sections) →
      readLines (sections.flatMap renderSection) = some (sections.flatMap sectionStatements) := by
    intro sections
    induction sections with
    | nil =>
      intro _
      rw [List.flatMap_nil, readLines]
      rfl
    | cons part sections ih =>
      intro hmem
      have hpart := hmem part List.mem_cons_self
      rw [List.flatMap_cons, readLines_section (hd.bareSections part hpart).1
        (hd.bareSections part hpart).2 (hparts part hpart),
        ih fun part h => hmem part (List.mem_cons_of_mem _ h)]
      rfl
  rw [render, String.toList_ofList, readLines_entries hd.bare htop,
    hsections d.sections fun _ h => h]
  rfl

/-- A document begins with a key or with an empty line. -/
theorem dropByteOrderMark_render (hd : d.WellFormed) :
    dropByteOrderMark d.render.toList = d.render.toList := by
  have hhead : ∀ rest, d.render.toList ≠ '\ufeff' :: rest := by
    intro rest heq
    rw [render, String.toList_ofList] at heq
    cases htop : d.top with
    | nil =>
      rw [htop] at heq
      cases hsections : d.sections with
      | nil =>
        rw [hsections] at heq
        cases heq
      | cons part sections =>
        rw [hsections] at heq
        exact absurd (List.cons.inj heq).1 (by decide)
    | cons e entries =>
      obtain ⟨c, s, hcons, hc⟩ := renderEntry_eq_cons (hd.bare e (htop ▸ List.mem_cons_self))
      rw [htop, List.flatMap_cons, hcons] at heq
      exact ne_of_isBareKeyChar hc (by decide) (List.cons.inj heq).1
  unfold dropByteOrderMark
  split
  · next heq => exact absurd heq (hhead _)
  · rfl

end PlainDocument

/-! ## Tables -/

theorem lookup_eq_none_of_notMem {t : Table} {key : String} (h : key ∉ t.map Prod.fst) :
    t.lookup key = none := by
  rw [List.lookup_eq_none_iff]
  rintro ⟨k, v⟩ hmem
  simpa using fun heq : key = k => h (heq ▸ List.mem_map_of_mem hmem)

theorem put_eq_append {t : Table} {key : String} (h : key ∉ t.map Prod.fst) (v : Value) :
    t.put key v = t ++ [(key, v)] := by
  rw [Named.put, Named.remove_eq_self h]

theorem lookup_append_self {t : Table} {key : String} (h : key ∉ t.map Prod.fst) (v : Value) :
    List.lookup key (t ++ [(key, v)]) = some v := by
  rw [List.lookup_append, lookup_eq_none_of_notMem h, List.lookup_cons_self]
  rfl

theorem put_append_self {t : Table} {key : String} (h : key ∉ t.map Prod.fst) (v w : Value) :
    Named.put (t ++ [(key, v)]) key w = t ++ [(key, w)] := by
  have hrem : Named.remove (t ++ [(key, v)]) key = t := by
    have hself := Named.remove_eq_self h
    unfold Named.remove at hself ⊢
    rw [List.filter_append, hself, List.filter_cons_of_neg (by simp), List.filter_nil,
      List.append_nil]
  rw [Named.put, hrem]

/-- A new key goes to the end of the table. -/
theorem insert_new {t : Table} {key : String} (h : key ∉ t.map Prod.fst) (v : Value) :
    t.insert [key] v = some (t ++ [(key, v)]) := by
  rw [Table.insert, lookup_eq_none_of_notMem h, ← put_eq_append h]

/-- The state after the statements. -/
def performAll (statements : List Statement) (state : List String × Table) :
    Option (List String × Table) :=
  statements.foldlM (fun state statement => Statement.apply statement state) state

theorem performAll_cons (statement : Statement) (statements : List Statement)
    (state : List String × Table) :
    performAll (statement :: statements) state =
      (Statement.apply statement state).bind (performAll statements) := by
  rw [performAll, List.foldlM_cons]
  rfl

theorem performAll_append (s t : List Statement) (state : List String × Table) :
    performAll (s ++ t) state = (performAll s state).bind (performAll t) := by
  rw [performAll, List.foldlM_append]
  rfl

theorem nodup_append_cons {t : Table} {key : String} {keys : List String}
    (hn : (t.map Prod.fst ++ key :: keys).Nodup) (v : Value) :
    key ∉ t.map Prod.fst ∧ ((t ++ [(key, v)]).map Prod.fst ++ keys).Nodup := by
  refine ⟨fun hmem => (List.nodup_append.mp hn).2.2 key hmem key List.mem_cons_self rfl, ?_⟩
  rw [List.map_append, List.append_assoc]
  exact hn

/-- Values under new keys are added to the table that `place` puts where the header says. -/
theorem performAll_assign (path : List String) (place : Table → Table)
    (hplace : ∀ t key v, key ∉ t.map Prod.fst →
      (place t).within path (Table.insert [key] v) = some (place (t ++ [(key, v)])))
    {entries : Entries} {t : Table} (hn : (t.map Prod.fst ++ entries.map Prod.fst).Nodup) :
    performAll (entries.map assign) (path, place t) =
      some (path, place (t ++ values entries)) := by
  induction entries generalizing t with
  | nil =>
    rw [values, List.map_nil, List.map_nil, List.append_nil]
    rfl
  | cons e entries ih =>
    obtain ⟨hnew, hn⟩ := nodup_append_cons hn e.2.toValue
    have happly : Statement.apply (assign e) (path, place t) =
        some (path, place (t ++ [(e.1, e.2.toValue)])) := by
      show ((place t).within path _).map _ = _
      rw [hplace t e.1 _ hnew]
      rfl
    rw [List.map_cons, performAll_cons, happly, Option.bind_some, ih hn, List.append_assoc]
    rfl

/-- A section is added to the table as a whole. -/
theorem performAll_section {part : String × Entries} {t : Table} (path : List String)
    (hnew : part.1 ∉ t.map Prod.fst) (hn : (part.2.map Prod.fst).Nodup) :
    performAll (sectionStatements part) (path, t) =
      some ([part.1], t ++ [(part.1, .table .header (values part.2))]) := by
  have hopen : Statement.apply (.table [part.1]) (path, t) =
      some ([part.1], t ++ [(part.1, .table .header [])]) := by
    show (Table.openTable part.1 t).map _ = _
    rw [Table.openTable, lookup_eq_none_of_notMem hnew, ← put_eq_append hnew]
    rfl
  rw [sectionStatements, performAll_cons, hopen, Option.bind_some]
  refine performAll_assign [part.1] (fun entries => t ++ [(part.1, .table .header entries)])
    (fun entries key v hkey => ?_) (t := []) (by simpa using hn)
  rw [Table.within, lookup_append_self hnew]
  show (Table.insert [key] v entries).map _ = _
  rw [insert_new hkey, Option.map_some, put_append_self hnew]

theorem performAll_sections {sections : List (String × Entries)} (path : List String) {t : Table}
    (hn : (t.map Prod.fst ++ sections.map Prod.fst).Nodup)
    (hparts : ∀ part ∈ sections, (part.2.map Prod.fst).Nodup) :
    (performAll (sections.flatMap sectionStatements) (path, t)).map Prod.snd =
      some (t ++ sections.map fun part => (part.1, .table .header (values part.2))) := by
  induction sections generalizing path t with
  | nil =>
    rw [List.map_nil, List.append_nil]
    rfl
  | cons part sections ih =>
    obtain ⟨hnew, hn⟩ := nodup_append_cons hn (.table .header (values part.2))
    rw [List.flatMap_cons, performAll_append,
      performAll_section path hnew (hparts part List.mem_cons_self), Option.bind_some,
      ih [part.1] hn fun part h => hparts part (List.mem_cons_of_mem _ h), List.append_assoc]
    rfl

/-- The statements of a document make the table of its values. -/
theorem ofStatements_toStatements {d : PlainDocument} (hd : d.WellFormed) :
    Table.ofStatements d.toStatements = some d.toTable := by
  have hnames : (values d.top).map Prod.fst = d.top.map Prod.fst := by simp [values]
  have htop : performAll (d.top.map assign) ([], []) = some ([], values d.top) :=
    performAll_assign [] id (fun _ _ _ h => insert_new h _) (t := [])
      (by simpa using (List.nodup_append.mp hd.distinct).1)
  show (performAll (d.top.map assign ++ d.sections.flatMap sectionStatements) ([], [])).map _ = _
  rw [performAll_append, htop, Option.bind_some]
  exact performAll_sections [] (by rw [hnames]; exact hd.distinct) hd.distinctInSections

/-- The text of a document describes the table of its values. -/
theorem Table.ofText?_render {d : PlainDocument} (hd : d.WellFormed) (hw : d.isWritable) :
    Table.ofText? d.render = some d.toTable := by
  rw [Table.ofText?, PlainDocument.dropByteOrderMark_render hd,
    PlainDocument.readLines_render hd hw]
  exact ofStatements_toStatements hd

end DeviceBatch.Toml
