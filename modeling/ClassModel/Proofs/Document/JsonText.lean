import ClassModel.Document.Json
import ClassModel.Document.JsonText
import ClassModel.Proofs.Names

/-!
# What is written is read back

A document of nulls, booleans, whole numbers of at most 64 bits, strings, arrays and maps is written
as a text that reads as this document again, with nothing behind it.
-/

namespace ClassModel.Document.Json

/-! ## Numbers -/

theorem value_toDigits (n : Nat) : Numeral.value (Nat.toDigits 10 n) = n :=
  Nat.ofDigitChars_toDigits (by decide) (by decide)

theorem isDigit_of_toDigits {n : Nat} {c : Char} (h : c ∈ Nat.toDigits 10 n) : c.isDigit = true :=
  Nat.isDigit_of_mem_toDigits (by decide) (by decide) h

/-- A number does not begin with a zero unless that is all. -/
theorem eq_nil_of_toDigits_zero {n : Nat} : ∀ {ds : List Char}, Nat.toDigits 10 n = '0' :: ds → ds = [] := by
  induction n using Nat.strongRecOn with
  | ind n ih =>
    intro ds h
    by_cases hn : n < 10
    · rw [Nat.toDigits_of_lt_base hn] at h
      exact (List.cons.inj h).2.symm
    · rw [Nat.toDigits_of_base_le (by decide) (Nat.not_lt.mp hn)] at h
      cases hq : Nat.toDigits 10 (n / 10) with
      | nil => exact absurd hq (Name.toDigits_ne_nil _)
      | cons c cs =>
        rw [hq, List.cons_append] at h
        obtain ⟨rfl, -⟩ := List.cons.inj h
        have hcs := ih (n / 10) (by omega) hq
        have hv := value_toDigits (n / 10)
        rw [hq, hcs] at hv
        have : n / 10 = 0 := hv.symm
        omega

def Stops (rest : List Char) : Prop := rest = [] ∨ ∃ c cs, rest = c :: cs ∧ (c = ',' ∨ c = '\n')

theorem Stops.comma (cs : List Char) : Stops (',' :: cs) := .inr ⟨_, _, rfl, .inl rfl⟩

theorem Stops.newline (level : Nat) (cs : List Char) : Stops (newline level ++ cs) := .inr ⟨_, _, rfl, .inr rfl⟩

theorem digits?_append {ds rest : List Char} (hd : ∀ c ∈ ds, c.isDigit = true) (hne : ds ≠ []) (hr : Stops rest) :
    digits? (ds ++ rest) = some (ds, rest) := by
  have htake : rest.takeWhile Char.isDigit = [] ∧ rest.dropWhile Char.isDigit = rest := by
    rcases hr with rfl | ⟨c, cs, rfl, rfl | rfl⟩ <;> exact ⟨rfl, rfl⟩
  unfold digits?
  rw [List.takeWhile_append_of_pos hd, List.dropWhile_append_of_pos hd, htake.1, htake.2, List.append_nil]
  cases ds with
  | nil => exact absurd rfl hne
  | cons c cs => rfl

theorem whole?_toDigits (n : Nat) {rest : List Char} (hr : Stops rest) :
    whole? (Nat.toDigits 10 n ++ rest) = some (Nat.toDigits 10 n, rest) := by
  unfold whole?
  rw [digits?_append (fun _ => isDigit_of_toDigits) (Name.toDigits_ne_nil n) hr]
  split
  · rename_i c cs _ h
    obtain ⟨h, -⟩ := Prod.mk.inj (Option.some.inj h)
    cases eq_nil_of_toDigits_zero h
  · rfl

theorem fraction?_stops {rest : List Char} (hr : Stops rest) : fraction? rest = some ([], rest) := by
  rcases hr with rfl | ⟨c, cs, rfl, rfl | rfl⟩ <;> rfl

theorem exponent?_stops {rest : List Char} (hr : Stops rest) : exponent? rest = some (none, rest) := by
  rcases hr with rfl | ⟨c, cs, rfl, rfl | rfl⟩ <;> rfl

theorem toDigits_head (n : Nat) : ∃ c cs, Nat.toDigits 10 n = c :: cs ∧ c.isDigit = true := by
  cases h : Nat.toDigits 10 n with
  | nil => exact absurd h (Name.toDigits_ne_nil n)
  | cons c cs => exact ⟨c, cs, rfl, isDigit_of_toDigits (n := n) (by rw [h]; exact List.mem_cons_self)⟩

theorem numeral?_natural (n : Nat) {rest : List Char} (hr : Stops rest) :
    numeral? (Nat.toDigits 10 n ++ rest) = some (⟨false, Nat.toDigits 10 n, [], none⟩, rest) := by
  obtain ⟨c, cs, hc, hd⟩ := toDigits_head n
  have hminus : c ≠ '-' := by rintro rfl; revert hd; decide
  have hw := whole?_toDigits n hr
  rw [hc, List.cons_append] at hw ⊢
  unfold numeral?
  split
  rename_i hsign
  split at hsign
  · rename_i hcons
    exact absurd (List.cons.inj hcons).1 hminus
  · cases hsign
    simp only [hw, fraction?_stops hr, exponent?_stops hr, Option.map_some]

theorem numeral?_negative (n : Nat) {rest : List Char} (hr : Stops rest) :
    numeral? ('-' :: (Nat.toDigits 10 n ++ rest)) = some (⟨true, Nat.toDigits 10 n, [], none⟩, rest) := by
  unfold numeral?
  simp only [whole?_toDigits n hr, fraction?_stops hr, exponent?_stops hr, Option.map_some]

def Fits (n : Int) : Prop := -(Nat.pow 2 63 : Int) ≤ n ∧ n ≤ largestWord

theorem scanNumber_integer {n : Int} (hn : Fits n) {rest : List Char} (hr : Stops rest) :
    scanNumber ((toString n).toList ++ rest) = (.integer n, some rest) := by
  obtain ⟨hlow, hhigh⟩ := hn
  cases n with
  | ofNat m =>
    have htext : (toString (Int.ofNat m)).toList = Nat.toDigits 10 m := Nat.toList_repr
    have hm : m ≤ largestWord := Int.ofNat_le.mp hhigh
    unfold scanNumber
    rw [htext, numeral?_natural m hr]
    simp [Numeral.data, Numeral.isWhole, value_toDigits, hm]
  | negSucc m =>
    have htext : (toString (Int.negSucc m)).toList = '-' :: Nat.toDigits 10 (m + 1) := by
      show ("-" ++ Nat.repr (m + 1)).toList = _
      rw [String.toList_append, Nat.toList_repr]
      rfl
    have hm : m + 1 ≤ Nat.pow 2 63 := by omega
    unfold scanNumber
    rw [htext, List.cons_append, numeral?_negative (m + 1) hr]
    simp [Numeral.data, Numeral.isWhole, value_toDigits, hm, Int.negSucc_eq]

/-! ## Strings -/

theorem hexValue?_hexDigit : ∀ k < 16, hexValue? (Text.hexDigit k) = some k := by decide

theorem hexQuad?_control {n : Nat} (hn : n < 0x20) (rest : List Char) :
    hexQuad? (Text.paddedHex 4 n ++ rest) = some (n, rest) := by
  have hzero : hexValue? '0' = some 0 := by decide
  have hlow (k : Nat) (hk : k < 16) : Text.hexDigits k = [Text.hexDigit k] := by
    rw [Text.hexDigits, if_pos hk]
  by_cases h : n < 16
  · have hpad : Text.paddedHex 4 n = ['0', '0', '0', Text.hexDigit n] := by
      unfold Text.paddedHex
      rw [hlow n h]
      rfl
    rw [hpad]
    simp [hexQuad?, hzero, hexValue?_hexDigit n h]
  · have hpad : Text.paddedHex 4 n = ['0', '0', Text.hexDigit (n / 16), Text.hexDigit (n % 16)] := by
      unfold Text.paddedHex
      rw [Text.hexDigits, if_neg h, hlow (n / 16) (by omega)]
      rfl
    rw [hpad]
    simp only [List.cons_append, List.nil_append, hexQuad?, hzero, hexValue?_hexDigit (n / 16) (by omega),
      hexValue?_hexDigit (n % 16) (by omega)]
    congr 2
    omega

theorem codeUnits_control {c : Char} (hc : c.toNat < 0x20) (rest : List Char) :
    codeUnits (Text.paddedHex 4 c.toNat ++ rest) = .good c rest := by
  have hhigh : isHighSurrogate c.toNat = false := by
    simp only [isHighSurrogate, Bool.and_eq_false_iff, decide_eq_false_iff_not]
    omega
  have hlow : isLowSurrogate c.toNat = false := by
    simp only [isLowSurrogate, Bool.and_eq_false_iff, decide_eq_false_iff_not]
    omega
  unfold codeUnits
  rw [hexQuad?_control hc]
  simp only [hhigh, hlow, Bool.false_eq_true, if_false, Char.ofNat_toNat]

theorem stringBody_escape (c : Char) (n : Nat) (rest : List Char) :
    stringBody (n + 1) (escape c ++ rest) = stringBody.prepend c (stringBody n rest) := by
  unfold escape
  split
  · subst_vars; rfl
  split
  · subst_vars; rfl
  split
  · subst_vars; rfl
  split
  · subst_vars; rfl
  split
  · subst_vars; rfl
  split
  · subst_vars; rfl
  split
  · subst_vars; rfl
  split
  · rename_i hc
    rw [List.cons_append, List.cons_append, stringBody, codeUnits_control hc]
  · rename_i hquote hback _ _ _ _ _ hc
    rw [List.singleton_append, stringBody.eq_def]
    split <;> simp_all [Nat.not_lt.mpr]

theorem stringBody_string : ∀ (cs : List Char) {n : Nat} (rest : List Char), cs.length < n →
    stringBody n (cs.flatMap escape ++ '"' :: rest) = .good cs rest
  | [], n + 1, rest, _ => rfl
  | c :: cs, n + 1, rest, hn => by
    rw [List.flatMap_cons, List.append_assoc, stringBody_escape, stringBody_string cs rest (Nat.lt_of_succ_lt_succ hn)]
    rfl

theorem length_le_flatMap_escape : ∀ cs : List Char, cs.length ≤ (cs.flatMap escape).length
  | [] => Nat.le_refl _
  | c :: cs => by
    have hc : 0 < (escape c).length := by
      unfold escape
      repeat' split
      all_goals simp
    have ih := length_le_flatMap_escape cs
    rw [List.flatMap_cons, List.length_append, List.length_cons]
    omega

theorem string_writeString (s : String) (rest : List Char) :
    string (s.toList.flatMap escape ++ '"' :: rest) = .good s rest := by
  unfold string
  rw [stringBody_string]
  · simp
  · have := length_le_flatMap_escape s.toList
    rw [List.length_append]
    omega

/-! ## Values -/

/-- A document without faults and floating-point numbers, its whole numbers of at most 64 bits. -/
inductive Plain : Data → Prop where
  | null : Plain .null
  | boolean (b : Bool) : Plain (.boolean b)
  | integer {n : Int} (fits : Fits n) : Plain (.integer n)
  | string (s : String) : Plain (.string s)
  | items {ds : List Data} (each : ∀ d ∈ ds, Plain d) : Plain (.ofItems ds)
  | entries {es : List (String × Data)} (each : ∀ e ∈ es, Plain e.2) : Plain (.ofEntries es)

theorem skipSpaces_blanks : ∀ (n : Nat) (cs : List Char), skipSpaces (List.replicate n ' ' ++ cs) = skipSpaces cs
  | 0, _ => rfl
  | n + 1, cs => skipSpaces_blanks n cs

@[simp]
theorem skipSpaces_newline (level : Nat) (cs : List Char) : skipSpaces (newline level ++ cs) = skipSpaces cs :=
  skipSpaces_blanks (2 * level) cs

@[simp]
theorem skipSpaces_idem (cs : List Char) : skipSpaces (skipSpaces cs) = skipSpaces cs := by
  induction cs with
  | nil => rfl
  | cons c cs ih =>
    unfold skipSpaces at ih ⊢
    rw [List.dropWhile_cons]
    split
    · exact ih
    · rename_i h
      rw [List.dropWhile_cons, if_neg h]

theorem skipSpaces_cons {c : Char} (hc : isSpace c = false) (cs : List Char) : skipSpaces (c :: cs) = c :: cs := by
  unfold skipSpaces
  rw [List.dropWhile_cons, hc]
  rfl

theorem value_skipSpaces (n : Nat) (cs : List Char) : value n (skipSpaces cs) = value n cs := by
  cases n with
  | zero => rfl
  | succ n => rw [value, value, skipSpaces_idem]

theorem items_skipSpaces (n : Nat) (cs : List Char) : items n (skipSpaces cs) = items n cs := by
  cases n with
  | zero => rfl
  | succ n => rw [items, items, skipSpaces_idem]

theorem entries_skipSpaces (n : Nat) (cs : List Char) : entries n (skipSpaces cs) = entries n cs := by
  cases n with
  | zero => rfl
  | succ n => rw [entries, entries, skipSpaces_idem]

def Opens (c : Char) : Prop := isSpace c = false ∧ c ≠ ']'

theorem opens_digit {c : Char} (h : c.isDigit = true) : Opens c := by
  refine ⟨?_, by rintro rfl; revert h; decide⟩
  cases hs : isSpace c with
  | false => rfl
  | true =>
    simp only [isSpace, Bool.or_eq_true, beq_iff_eq] at hs
    rcases hs with ((rfl | rfl) | rfl) | rfl <;> revert h <;> decide

theorem integer_head (n : Int) : ∃ c cs, (toString n).toList = c :: cs ∧ (c = '-' ∨ c.isDigit = true) := by
  cases n with
  | ofNat m =>
    obtain ⟨c, cs, hc, hd⟩ := toDigits_head m
    exact ⟨c, cs, Nat.toList_repr.trans hc, .inr hd⟩
  | negSucc m =>
    refine ⟨'-', (Nat.repr (m + 1)).toList, ?_, .inl rfl⟩
    show ("-" ++ Nat.repr (m + 1)).toList = _
    rw [String.toList_append]
    rfl

theorem write_head {d : Data} (hd : Plain d) (level : Nat) : ∃ c cs, write level d = c :: cs ∧ Opens c := by
  cases hd with
  | null => exact ⟨_, _, rfl, by decide, by decide⟩
  | boolean b => cases b <;> exact ⟨_, _, rfl, by decide, by decide⟩
  | integer =>
    obtain ⟨c, cs, hc, rfl | hd⟩ := integer_head _
    · exact ⟨_, _, hc, by decide, by decide⟩
    · exact ⟨_, _, hc, opens_digit hd⟩
  | string s => exact ⟨_, _, rfl, by decide, by decide⟩
  | @items ds _ => cases ds <;> exact ⟨_, _, rfl, by decide, by decide⟩
  | @entries es _ => cases es <;> exact ⟨_, _, rfl, by decide, by decide⟩

theorem skipSpaces_write {d : Data} (hd : Plain d) (level : Nat) (rest : List Char) :
    skipSpaces (write level d ++ rest) = write level d ++ rest := by
  obtain ⟨c, cs, hc, ho, -⟩ := write_head hd level
  rw [hc, List.cons_append]
  exact skipSpaces_cons ho _

/-- A value is read where it is written, if there are steps enough for its text. -/
def Reads (d : Data) : Prop :=
  ∀ {level n : Nat} {rest : List Char}, Stops rest → 2 * (write level d ++ rest).length < n →
    value n (write level d ++ rest) = (d, some rest)

theorem reads_integer {k : Int} (hk : Fits k) : Reads (.integer k) := by
  intro level n rest hr hn
  obtain ⟨n, rfl⟩ := Nat.exists_eq_succ_of_ne_zero (Nat.ne_zero_of_lt hn)
  have hscan := scanNumber_integer hk hr
  obtain ⟨c, cs, hc, hd⟩ := integer_head k
  rw [hc, List.cons_append] at hscan
  rw [write, hc, List.cons_append]
  have hopen : isSpace c = false ∧ c ≠ '"' ∧ c ≠ '[' ∧ c ≠ '\x7b' ∧ c ≠ 'n' ∧ c ≠ 't' ∧ c ≠ 'f' := by
    rcases hd with rfl | hd
    · decide
    · refine ⟨(opens_digit hd).1, ?_, ?_, ?_, ?_, ?_, ?_⟩ <;> (rintro rfl; revert hd; decide)
  obtain ⟨hspace, hquote, hbracket, hbrace, hn, ht, hf⟩ := hopen
  rw [value, skipSpaces_cons hspace]
  simp only [hn, ht, hf, if_false, hscan]

theorem reads_string (s : String) : Reads (.string s) := by
  intro level n rest _ hn
  obtain ⟨n, rfl⟩ := Nat.exists_eq_succ_of_ne_zero (Nat.ne_zero_of_lt hn)
  have htext : write level (.string s) ++ rest = '"' :: (s.toList.flatMap escape ++ '"' :: rest) := by
    simp [write, writeString]
  rw [htext, value, skipSpaces_cons (by decide)]
  simp only [string_writeString]

theorem skipSpaces_write_ne {d : Data} (hd : Plain d) (level : Nat) (rest more : List Char) :
    skipSpaces (write level d ++ rest) ≠ ']' :: more := by
  obtain ⟨c, cs, hc, -, hb⟩ := write_head hd level
  rw [skipSpaces_write hd, hc, List.cons_append]
  intro h
  exact hb (List.cons.inj h).1

def itemsAfter (n : Nat) (d : Data) : List Char → Members Data
  | ',' :: rest => .cons d (items n rest)
  | ']' :: rest => ⟨[d], none, some rest⟩
  | _ => .cons d .stop

theorem items_item {n : Nat} {cs rest : List Char} {d : Data} (hcs : ∀ more, skipSpaces cs ≠ ']' :: more)
    (hv : value n cs = (d, some rest)) : items (n + 1) cs = itemsAfter n d (skipSpaces rest) := by
  rw [items]
  split
  · rename_i h
    exact absurd h (hcs _)
  · rw [value_skipSpaces, hv]
    rfl

theorem items_writeItems (level outer n : Nat) (rest : List Char) {ds : List Data} {d : Data} (hp : Plain d)
    (hd : Reads d) (hds : ∀ x ∈ ds, Plain x ∧ Reads x)
    (hn : 2 * (write level d ++ (writeItems level ds ++ (newline outer ++ ']' :: rest))).length + 1 < n) :
    items n (write level d ++ (writeItems level ds ++ (newline outer ++ ']' :: rest)))
      = ⟨d :: ds, none, some rest⟩ := by
  induction ds generalizing d n with
  | nil =>
    obtain ⟨n, rfl⟩ := Nat.exists_eq_succ_of_ne_zero (Nat.ne_zero_of_lt hn)
    simp only [writeItems, List.nil_append] at hn ⊢
    rw [items_item (skipSpaces_write_ne hp _ _) (hd (.newline _ _) (by omega)), skipSpaces_newline,
      skipSpaces_cons (by decide)]
    rfl
  | cons x xs ih =>
    obtain ⟨n, rfl⟩ := Nat.exists_eq_succ_of_ne_zero (Nat.ne_zero_of_lt hn)
    obtain ⟨hpx, hrx⟩ := hds x List.mem_cons_self
    simp only [writeItems, List.append_assoc, List.cons_append] at hn ⊢
    rw [items_item (skipSpaces_write_ne hp _ _) (hd (.comma _) (by omega)), skipSpaces_cons (by decide)]
    have hxs := ih n hpx hrx (fun y hy => hds y (List.mem_cons_of_mem _ hy)) (by
      simp only [List.length_append, List.length_cons] at hn ⊢
      omega)
    show Members.cons d (items n (newline level ++ _)) = _
    rw [← items_skipSpaces, skipSpaces_newline, items_skipSpaces, hxs]
    rfl

theorem reads_items {ds : List Data} (hds : ∀ d ∈ ds, Plain d ∧ Reads d) : Reads (.ofItems ds) := by
  intro level n rest _ hn
  obtain ⟨n, rfl⟩ := Nat.exists_eq_succ_of_ne_zero (Nat.ne_zero_of_lt hn)
  cases ds with
  | nil => rfl
  | cons d ds =>
    obtain ⟨hp, hd⟩ := hds d List.mem_cons_self
    have htext : write level (.ofItems (d :: ds)) ++ rest =
        '[' :: (newline (level + 1) ++ (write (level + 1) d ++
          (writeItems (level + 1) ds ++ (newline level ++ ']' :: rest)))) := by
      simp [Data.ofItems, write]
    rw [htext] at hn ⊢
    have hitems := items_writeItems (level + 1) level n rest hp hd
      (fun x hx => hds x (List.mem_cons_of_mem _ hx)) (by
        simp only [List.length_append, List.length_cons] at hn ⊢
        omega)
    have hopen := skipSpaces_write_ne hp (level + 1)
    rw [value, skipSpaces_cons (by decide)]
    simp only [skipSpaces_newline]
    split
    · rename_i h
      exact absurd h (hopen _ _)
    · rw [items_skipSpaces, hitems]
      rfl

theorem writeString_append (s : String) (rest : List Char) :
    writeString s ++ rest = '"' :: (s.toList.flatMap escape ++ '"' :: rest) := by
  simp [writeString]

def entriesAfter (n : Nat) (e : String × Data) : List Char → Members (String × Data)
  | ',' :: rest => .cons e (entries n rest)
  | '\x7d' :: rest => ⟨[e], none, some rest⟩
  | _ => .cons e .stop

theorem entries_entry {level n : Nat} {key : String} {d : Data} {rest : List Char} (hd : Reads d) (hr : Stops rest)
    (hn : 2 * (writeString key ++ ':' :: ' ' :: (write level d ++ rest)).length < n + 2) :
    entries (n + 2) (writeString key ++ ':' :: ' ' :: (write level d ++ rest)) =
      entriesAfter n (key, d) (skipSpaces rest) := by
  have hv : value n (' ' :: (write level d ++ rest)) = (d, some rest) := by
    rw [← value_skipSpaces]
    show value n (skipSpaces (write level d ++ rest)) = _
    rw [value_skipSpaces]
    refine hd hr ?_
    simp only [List.length_append, List.length_cons] at hn ⊢
    omega
  rw [writeString_append, entries, skipSpaces_cons (by decide)]
  simp only [string_writeString]
  rw [entry, skipSpaces_cons (by decide)]
  simp only [hv]
  rfl

theorem entries_writeEntries (level outer n : Nat) (rest : List Char) {es : List (String × Data)} (key : String)
    {d : Data} (hd : Reads d) (hes : ∀ e ∈ es, Reads e.2)
    (hn : 2 * (writeString key ++ ':' :: ' ' ::
      (write level d ++ (writeEntries level es ++ (newline outer ++ '\x7d' :: rest)))).length + 1 < n) :
    entries n (writeString key ++ ':' :: ' ' ::
        (write level d ++ (writeEntries level es ++ (newline outer ++ '\x7d' :: rest))))
      = ⟨(key, d) :: es, none, some rest⟩ := by
  obtain ⟨n, rfl⟩ : ∃ k, n = k + 2 := ⟨n - 2, by omega⟩
  induction es generalizing key d n with
  | nil =>
    simp only [writeEntries, List.nil_append] at hn ⊢
    rw [entries_entry hd (.newline _ _) (by omega), skipSpaces_newline, skipSpaces_cons (by decide)]
    rfl
  | cons e es ih =>
    simp only [writeEntries, List.append_assoc, List.cons_append, List.nil_append] at hn ⊢
    rw [entries_entry hd (.comma _) (by omega), skipSpaces_cons (by decide)]
    obtain ⟨k, rfl⟩ : ∃ k, n = k + 2 := ⟨n - 2, by
      simp only [List.length_append, List.length_cons] at hn
      omega⟩
    have hrest := ih e.1 (n := k) (hes e List.mem_cons_self) (fun x hx => hes x (List.mem_cons_of_mem _ hx)) (by
      simp only [List.length_append, List.length_cons] at hn ⊢
      omega)
    show Members.cons (key, d) (entries (k + 2) (newline level ++ _)) = _
    rw [← entries_skipSpaces, skipSpaces_newline, entries_skipSpaces, hrest]
    rfl

theorem reads_entries {es : List (String × Data)} (hes : ∀ e ∈ es, Reads e.2) : Reads (.ofEntries es) := by
  intro level n rest _ hn
  obtain ⟨n, rfl⟩ := Nat.exists_eq_succ_of_ne_zero (Nat.ne_zero_of_lt hn)
  cases es with
  | nil => rfl
  | cons e es =>
    have htext : write level (.ofEntries (e :: es)) ++ rest =
        '\x7b' :: (newline (level + 1) ++ (writeString e.1 ++ ':' :: ' ' ::
          (write (level + 1) e.2 ++ (writeEntries (level + 1) es ++ (newline level ++ '\x7d' :: rest))))) := by
      obtain ⟨k, d⟩ := e
      simp [Data.ofEntries, write]
    rw [htext] at hn ⊢
    have hentries := entries_writeEntries (level + 1) level n rest e.1
      (hes e List.mem_cons_self) (fun x hx => hes x (List.mem_cons_of_mem _ hx)) (by
        simp only [List.length_append, List.length_cons] at hn ⊢
        omega)
    rw [value, skipSpaces_cons (by decide)]
    simp only [skipSpaces_newline]
    rw [writeString_append] at hentries ⊢
    rw [skipSpaces_cons (by decide)]
    split
    · rename_i h
      exact absurd (List.cons.inj h).1 (by decide)
    · rw [hentries]
      rfl

theorem reads_plain {d : Data} (hd : Plain d) : Reads d := by
  induction hd with
  | null =>
    intro level n rest _ hn
    obtain ⟨n, rfl⟩ := Nat.exists_eq_succ_of_ne_zero (Nat.ne_zero_of_lt hn)
    rfl
  | boolean b =>
    intro level n rest _ hn
    obtain ⟨n, rfl⟩ := Nat.exists_eq_succ_of_ne_zero (Nat.ne_zero_of_lt hn)
    cases b <;> rfl
  | integer fits => exact reads_integer fits
  | string s => exact reads_string s
  | items each ih => exact reads_items fun d hd => ⟨each d hd, ih d hd⟩
  | entries each ih => exact reads_entries ih

/-- The text of a plain document reads as this document, and nothing stands behind it. -/
theorem ofText_toText {d : Data} (hd : Plain d) : ofText (toText d) = (d, false) := by
  have hv : value (2 * (write 0 d).length + 2) (write 0 d) = (d, some []) := by
    have hreads : value (2 * (write 0 d ++ []).length + 2) (write 0 d ++ []) = (d, some []) :=
      reads_plain hd (.inl rfl) (by omega)
    rwa [List.append_nil] at hreads
  unfold ofText toText
  simp only [String.toList_ofList, hv]
  rfl

/-! ## Well-formed texts -/

def Closed (skippable : List α → Bool) (m : Members α) : Prop :=
  m.rest ≠ none → skippable m.list = true ∧ m.cut ≠ some .malformed

theorem Closed.stop {skippable : List α → Bool} : Closed skippable .stop := fun h => absurd rfl h

theorem closed_items_cons {d : Data} (hd : d.skippable = true) {m : Members Data}
    (hm : Closed Data.skippableItems m) : Closed Data.skippableItems (.cons d m) := fun h => by
  obtain ⟨hlist, hcut⟩ := hm h
  exact ⟨by simp [Members.cons, Data.skippableItems, hd, hlist], hcut⟩

theorem closed_entries_cons {key : String} {d : Data} (hd : d.skippable = true) {m : Members (String × Data)}
    (hm : Closed Data.skippableEntries m) : Closed Data.skippableEntries (.cons (key, d) m) := fun h => by
  obtain ⟨hlist, hcut⟩ := hm h
  exact ⟨by simp [Members.cons, Data.skippableEntries, hd, hlist], hcut⟩

/-- What one step of the readers finds can be passed over, up to the place where the text breaks. -/
structure Passes (n : Nat) : Prop where
  value : ∀ cs, (value n cs).2 ≠ none → (value n cs).1.skippable = true
  items : ∀ cs, Closed Data.skippableItems (items n cs)
  entries : ∀ cs, Closed Data.skippableEntries (entries n cs)
  entry : ∀ key cs, Closed Data.skippableEntries (entry n key cs)

theorem skippable_numeral (n : Numeral) : n.data.skippable = true := by
  unfold Numeral.data
  simp only
  repeat' split
  all_goals rfl

theorem passes_word {w : List Char} {d : Data} (hd : d.skippable = true) (cs : List Char) :
    (word w d cs).2 ≠ none → (word w d cs).1.skippable = true := by
  unfold word
  split
  · exact fun _ => hd
  · exact fun h => absurd rfl h

theorem passes_scanNumber (cs : List Char) : (scanNumber cs).2 ≠ none → (scanNumber cs).1.skippable = true := by
  unfold scanNumber
  split
  · exact fun _ => skippable_numeral _
  · exact fun h => absurd rfl h

theorem Passes.step {n : Nat} (ih : Passes n) : Passes (n + 1) where
  value cs := by
    rw [Json.value]
    repeat' split
    all_goals first
      | exact fun h => absurd rfl h
      | exact fun _ => rfl
      | exact passes_word rfl _
      | exact passes_scanNumber _
      | skip
    -- the text goes on behind an array or an object only if this is closed
    · intro h
      obtain ⟨hlist, hcut⟩ := ih.items _ h
      simp [Data.skippable, hlist, hcut]
    · intro h
      obtain ⟨hlist, hcut⟩ := ih.entries _ h
      simp [Data.skippable, hlist, hcut]
  items cs := by
    rw [Json.items]
    split
    · exact .stop
    · have hvalue := ih.value (skipSpaces cs)
      split
      · exact fun h => absurd rfl h
      · rename_i hv
        rw [hv] at hvalue
        have hd := hvalue (by simp)
        split
        · exact closed_items_cons hd (ih.items _)
        · exact fun _ => ⟨by simp [Data.skippableItems, hd], by simp⟩
        · exact closed_items_cons hd .stop
  entries cs := by
    rw [Json.entries]
    split
    · split
      · exact .stop
      · simp only
        split
        · exact .stop
        · exact fun _ => ⟨rfl, by simp⟩
      · exact ih.entry _ _
    · exact .stop
  entry key cs := by
    rw [Json.entry]
    split
    · rename_i rest _
      have hvalue := ih.value rest
      split
      · exact fun h => absurd rfl h
      · rename_i hv
        rw [hv] at hvalue
        have hd := hvalue (by simp)
        split
        · exact closed_entries_cons hd (ih.entries _)
        · exact fun _ => ⟨by simp [Data.skippableEntries, hd], by simp⟩
        · exact closed_entries_cons hd .stop
    · exact fun h => absurd rfl h

theorem passes : ∀ n, Passes n
  | 0 => ⟨fun _ h => absurd rfl h, fun _ => .stop, fun _ => .stop, fun _ _ => .stop⟩
  | n + 1 => (passes n).step

/-- Whatever a well-formed text holds can be passed over. -/
theorem skippable_of_ofText {text : String} {d : Data} (h : ofText text = (d, false)) : d.skippable = true := by
  unfold ofText at h
  simp only at h
  have hpass := (passes (2 * text.toList.length + 2)).value text.toList
  split at h
  · rename_i hv
    obtain ⟨rfl, -⟩ := Prod.mk.inj h
    rw [hv] at hpass
    exact hpass (by simp)
  · cases (Prod.mk.inj h).2

end ClassModel.Document.Json
