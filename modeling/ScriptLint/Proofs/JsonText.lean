import ScriptLint.Datum
import ScriptLint.Proofs.ShortestDecimal

/-!
# Reading JSON texts

A reader for JSON texts, and the proof that it gives back what was written. The reader knows
nothing of how data is written here: it takes any blanks between tokens, every escape sequence (with
pairs of surrogates for characters beyond the basic plane), and numbers with and without a point and
an exponent. It refuses what the grammar of JSON does not have, such as a comma after the last
element, a number that starts with a superfluous zero, or a control character inside quotes.

## Fuel

The functions that read nested data count down a number. The length of the text is enough, since a
character is taken before every call; `ReadsBack` compares the number with the length of what is
written for a datum.

## Main definitions

* `Json.text?`, `Json.number?` — read what stands in quotes, and a number
* `Json.value?` — reads a datum
* `Json.read?` — reads a text that is one datum
* `Datum.IsWritable` — data without numbers that cannot be written

## Main results

* `Json.text?_escaped` — any text in quotes reads back
* `Json.unsigned?_write` — a number reads back as the decimal that is written for it
* `Json.read?_render` — what is written reads back
-/

namespace ScriptLint

open Number

namespace Json

/-! ## The reader -/

/-- Whether a character may stand between two tokens. -/
def isBlank (c : Char) : Bool :=
  c == ' ' || c == '\t' || c == '\n' || c == '\r'

/-- What follows blanks. -/
def skipBlanks (s : List Char) : List Char :=
  s.dropWhile isBlank

/-- The value of a hexadecimal digit. -/
def hexValue? (c : Char) : Option Nat :=
  if '0' ≤ c ∧ c ≤ '9' then some (c.toNat - '0'.toNat)
  else if 'a' ≤ c ∧ c ≤ 'f' then some (c.toNat - 'a'.toNat + 10)
  else if 'A' ≤ c ∧ c ≤ 'F' then some (c.toNat - 'A'.toNat + 10)
  else none

/-- The code unit that four hexadecimal digits stand for. -/
def codeUnit? : List Char → Option (Nat × List Char)
  | a :: b :: c :: d :: rest => do
    let a ← hexValue? a
    let b ← hexValue? b
    let c ← hexValue? c
    let d ← hexValue? d
    some (16 * (16 * (16 * a + b) + c) + d, rest)
  | _ => none

/-- Whether a code unit is the first one of a pair. -/
def isHighSurrogate (u : Nat) : Bool :=
  0xd800 ≤ u && u < 0xdc00

/-- Whether a code unit is the second one of a pair. -/
def isLowSurrogate (u : Nat) : Bool :=
  0xdc00 ≤ u && u < 0xe000

/-- The character of a code unit, or of two of them. A lone surrogate is no character. -/
def unicode? (s : List Char) : Option (Char × List Char) := do
  let (high, rest) ← codeUnit? s
  if isHighSurrogate high then
    match rest with
    | '\\' :: 'u' :: rest => do
      let (low, rest) ← codeUnit? rest
      if isLowSurrogate low then
        some (.ofNat (0x10000 + (high - 0xd800) * 0x400 + (low - 0xdc00)), rest)
      else none
    | _ => none
  else if isLowSurrogate high then none
  else some (.ofNat high, rest)

/-- The character that is meant by what follows a backslash. -/
def escape? : List Char → Option (Char × List Char)
  | '"' :: rest => some ('"', rest)
  | '\\' :: rest => some ('\\', rest)
  | '/' :: rest => some ('/', rest)
  | 'b' :: rest => some ('\x08', rest)
  | 'f' :: rest => some ('\x0c', rest)
  | 'n' :: rest => some ('\n', rest)
  | 'r' :: rest => some ('\r', rest)
  | 't' :: rest => some ('\t', rest)
  | 'u' :: rest => unicode? rest
  | _ => none

/-- The characters up to the closing quote. Control characters must not stand there. -/
def chars? : Nat → List Char → Option (List Char × List Char)
  | 0, _ => none
  | _ + 1, [] => none
  | fuel + 1, c :: rest =>
    if c = '"' then some ([], rest)
    else if c = '\\' then do
      let (c, rest) ← escape? rest
      let (cs, rest) ← chars? fuel rest
      some (c :: cs, rest)
    else if c.toNat < 0x20 then none
    else do
      let (cs, rest) ← chars? fuel rest
      some (c :: cs, rest)

/-- The text that an opening quote starts. -/
def text? (s : List Char) : Option (String × List Char) :=
  (chars? s.length s).map fun (cs, rest) => (.ofList cs, rest)

/-- The digits at the start, and what follows them. -/
def digits (s : List Char) : List Char × List Char :=
  (s.takeWhile Char.isDigit, s.dropWhile Char.isDigit)

/-- The digits at the start, of which there must be one. -/
def digits? (s : List Char) : Option (List Char × List Char) :=
  if (digits s).1.isEmpty then none else some (digits s)

/-- The digits before the point: a single zero, or digits that do not start with one. -/
def whole? (s : List Char) : Option (List Char × List Char) := do
  let (ds, rest) ← digits? s
  if ds.head? = some '0' ∧ ds ≠ ['0'] then none else some (ds, rest)

/-- The digits after the point, if there is one. -/
def places? : List Char → Option (List Char × List Char)
  | '.' :: rest => digits? rest
  | s => some ([], s)

/-- The digits of an exponent, with its sign. -/
def exponentValue? : List Char → Option (Int × List Char)
  | '-' :: rest => (digits? rest).map fun (ds, rest) => (-(Nat.ofDigitChars 10 ds 0 : Int), rest)
  | '+' :: rest => (digits? rest).map fun (ds, rest) => (Nat.ofDigitChars 10 ds 0, rest)
  | s => (digits? s).map fun (ds, rest) => (Nat.ofDigitChars 10 ds 0, rest)

/-- The exponent, if there is one. -/
def exponent? : List Char → Option (Option Int × List Char)
  | 'e' :: rest => (exponentValue? rest).map fun (e, rest) => (some e, rest)
  | 'E' :: rest => (exponentValue? rest).map fun (e, rest) => (some e, rest)
  | s => some (none, s)

/-- The number of a numeral. One without a point and an exponent is an integer. -/
def numeral (negative : Bool) (whole places : List Char) : Option Int → Datum
  | some e =>
    .real (.ofDecimal negative (Nat.ofDigitChars 10 (whole ++ places) 0) (e - places.length))
  | none =>
    if places.isEmpty then
      .integer (if negative then -(Nat.ofDigitChars 10 whole 0 : Int)
        else Nat.ofDigitChars 10 whole 0)
    else .real (.ofDecimal negative (Nat.ofDigitChars 10 (whole ++ places) 0) (-places.length))

/-- A number without its sign. -/
def unsigned? (negative : Bool) (s : List Char) : Option (Datum × List Char) := do
  let (whole, rest) ← whole? s
  let (places, rest) ← places? rest
  let (exponent, rest) ← exponent? rest
  some (numeral negative whole places exponent, rest)

/-- A number. -/
def number? : List Char → Option (Datum × List Char)
  | '-' :: rest => unsigned? true rest
  | s => unsigned? false s

mutual

/-- A datum, with blanks before it. -/
def value? : Nat → List Char → Option (Datum × List Char)
  | 0, _ => none
  | fuel + 1, s =>
    match skipBlanks s with
    | 'n' :: 'u' :: 'l' :: 'l' :: rest => some (.null, rest)
    | 't' :: 'r' :: 'u' :: 'e' :: rest => some (.bool true, rest)
    | 'f' :: 'a' :: 'l' :: 's' :: 'e' :: rest => some (.bool false, rest)
    | '"' :: rest => (text? rest).map fun (t, rest) => (.text t, rest)
    | '[' :: rest =>
      match skipBlanks rest with
      | ']' :: rest => some (.list [], rest)
      | _ => (items? fuel rest).map fun (items, rest) => (.list items, rest)
    | '\x7b' :: rest =>
      match skipBlanks rest with
      | '\x7d' :: rest => some (.record [], rest)
      | _ => (members? fuel rest).map fun (members, rest) => (.record members, rest)
    | rest => number? rest

/-- The elements of a list, at least one, with the bracket that closes it. -/
def items? : Nat → List Char → Option (List Datum × List Char)
  | 0, _ => none
  | fuel + 1, s => do
    let (item, rest) ← value? fuel s
    match skipBlanks rest with
    | ',' :: rest => (items? fuel rest).map fun (items, rest) => (item :: items, rest)
    | ']' :: rest => some ([item], rest)
    | _ => none

/-- The members of a record, at least one, with the brace that closes it. -/
def members? : Nat → List Char → Option (List (String × Datum) × List Char)
  | 0, _ => none
  | fuel + 1, s =>
    match skipBlanks s with
    | '"' :: rest => do
      let (key, rest) ← text? rest
      match skipBlanks rest with
      | ':' :: rest => do
        let (value, rest) ← value? fuel rest
        match skipBlanks rest with
        | ',' :: rest =>
          (members? fuel rest).map fun (members, rest) => ((key, value) :: members, rest)
        | '\x7d' :: rest => some ([(key, value)], rest)
        | _ => none
      | _ => none
    | _ => none

end

/-- The datum that a text is, with blanks around it. -/
def read? (s : String) : Option Datum := do
  let (d, rest) ← value? (s.toList.length + 1) s.toList
  if (skipBlanks rest).isEmpty then some d else none

/-! ## Blanks -/

theorem skipBlanks_cons {c : Char} (hc : isBlank c = false) (s : List Char) :
    skipBlanks (c :: s) = c :: s :=
  List.dropWhile_cons_of_neg (by simp [hc])

theorem skipBlanks_newLine (level : Nat) (s : List Char) :
    skipBlanks (Datum.newLine level ++ s) = skipBlanks s := by
  refine List.dropWhile_append_of_pos fun c hc => ?_
  obtain rfl | hc := List.mem_cons.mp hc
  · rfl
  · rw [List.eq_of_mem_replicate hc]
    rfl

theorem value?_newLine (fuel level : Nat) (s : List Char) :
    value? fuel (Datum.newLine level ++ s) = value? fuel s := by
  cases fuel with
  | zero => rfl
  | succ fuel => rw [value?, value?, skipBlanks_newLine]

/-! ## Texts -/

theorem hexValue?_hexDigit (n : Nat) : hexValue? (Datum.hexDigit n) = some (n % 16) := by
  have hdigit : ∀ k < 16, hexValue? (Nat.digitChar k) = some k := by decide
  exact hdigit _ (Nat.mod_lt _ (by decide))

/-- A control character reads back from its four digits. -/
theorem unicode?_control {c : Char} (hc : c.toNat < 0x20) (rest : List Char) :
    unicode? ('0' :: '0' :: Datum.hexDigit (c.toNat / 16) :: Datum.hexDigit c.toNat :: rest) =
      some (c, rest) := by
  have hzero : hexValue? '0' = some 0 := rfl
  have hunit : codeUnit?
      ('0' :: '0' :: Datum.hexDigit (c.toNat / 16) :: Datum.hexDigit c.toNat :: rest) =
      some (c.toNat, rest) := by
    simp only [codeUnit?, hzero, hexValue?_hexDigit, Option.bind_eq_bind, Option.bind_some,
      Option.some.injEq, Prod.mk.injEq, and_true]
    omega
  have hhigh : isHighSurrogate c.toNat = false := by
    simp only [isHighSurrogate, Bool.and_eq_false_imp, decide_eq_true_eq]
    omega
  have hlow : isLowSurrogate c.toNat = false := by
    simp only [isLowSurrogate, Bool.and_eq_false_imp, decide_eq_true_eq]
    omega
  simp [unicode?, hunit, hhigh, hlow]

/-- A character is written with a backslash and reads back from what follows it, or it is written
as it is. -/
theorem escaped_cases (c : Char) :
    (∃ s, Datum.escaped c = '\\' :: s ∧ ∀ rest, escape? (s ++ rest) = some (c, rest)) ∨
      Datum.escaped c = [c] ∧ c ≠ '"' ∧ c ≠ '\\' ∧ ¬c.toNat < 0x20 := by
  rw [Datum.escaped]
  by_cases hquote : c = '"'
  · exact .inl ⟨_, if_pos hquote, fun rest => by rw [hquote]; rfl⟩
  rw [if_neg hquote]
  by_cases hbackslash : c = '\\'
  · exact .inl ⟨_, if_pos hbackslash, fun rest => by rw [hbackslash]; rfl⟩
  rw [if_neg hbackslash]
  by_cases hn : c = '\n'
  · exact .inl ⟨_, if_pos hn, fun rest => by rw [hn]; rfl⟩
  rw [if_neg hn]
  by_cases hr : c = '\r'
  · exact .inl ⟨_, if_pos hr, fun rest => by rw [hr]; rfl⟩
  rw [if_neg hr]
  by_cases ht : c = '\t'
  · exact .inl ⟨_, if_pos ht, fun rest => by rw [ht]; rfl⟩
  rw [if_neg ht]
  by_cases hb : c = '\x08'
  · exact .inl ⟨_, if_pos hb, fun rest => by rw [hb]; rfl⟩
  rw [if_neg hb]
  by_cases hf : c = '\x0c'
  · exact .inl ⟨_, if_pos hf, fun rest => by rw [hf]; rfl⟩
  rw [if_neg hf]
  by_cases hcontrol : c.toNat < 0x20
  · exact .inl ⟨_, if_pos hcontrol, unicode?_control hcontrol⟩
  · exact .inr ⟨if_neg hcontrol, hquote, hbackslash, hcontrol⟩

/-- One character reads back, whether it is escaped or not. -/
theorem chars?_escaped (c : Char) (fuel : Nat) (rest : List Char) :
    chars? (fuel + 1) (Datum.escaped c ++ rest) =
      (chars? fuel rest).map fun (cs, rest) => (c :: cs, rest) := by
  obtain ⟨s, hs, hescape⟩ | ⟨hs, hquote, hbackslash, hcontrol⟩ := escaped_cases c
  · rw [hs, List.cons_append]
    cases hrest : chars? fuel rest <;> simp [chars?, hescape, hrest]
  · rw [hs, List.singleton_append, chars?, if_neg hquote, if_neg hbackslash, if_neg hcontrol]
    cases chars? fuel rest <;> rfl

theorem chars?_flatMap_escaped (cs rest : List Char) {fuel : Nat} (hfuel : cs.length < fuel) :
    chars? fuel (cs.flatMap Datum.escaped ++ '"' :: rest) = some (cs, rest) := by
  induction cs generalizing fuel with
  | nil =>
    obtain ⟨fuel, rfl⟩ := Nat.exists_eq_succ_of_ne_zero hfuel.ne'
    rfl
  | cons c cs ih =>
    obtain ⟨fuel, rfl⟩ := Nat.exists_eq_succ_of_ne_zero (Nat.ne_zero_of_lt hfuel)
    rw [List.flatMap_cons, List.append_assoc, chars?_escaped,
      ih (Nat.lt_of_succ_lt_succ hfuel)]
    rfl

theorem length_le_length_escaped (cs : List Char) :
    cs.length ≤ (cs.flatMap Datum.escaped).length := by
  induction cs with
  | nil => exact Nat.le_refl _
  | cons c cs ih =>
    have hpos : 1 ≤ (Datum.escaped c).length := by
      obtain ⟨s, hs, -⟩ | ⟨hs, -⟩ := escaped_cases c <;> rw [hs] <;>
        exact Nat.succ_le_succ (Nat.zero_le _)
    rw [List.flatMap_cons, List.length_append, List.length_cons]
    omega

/-- **Any text reads back from its quotes**, whatever its characters are. -/
theorem text?_escaped (t : String) (rest : List Char) :
    text? (t.toList.flatMap Datum.escaped ++ '"' :: rest) = some (t, rest) := by
  have hlength := length_le_length_escaped t.toList
  have hfuel : t.toList.length < (t.toList.flatMap Datum.escaped ++ '"' :: rest).length := by
    rw [List.length_append, List.length_cons]
    omega
  simp only [text?, chars?_flatMap_escaped t.toList rest hfuel, Option.map_some,
    String.ofList_toList]

/-! ## Numbers -/

/-- Nothing that could belong to a number stands at the start of a text. -/
def IsDelimited (s : List Char) : Prop :=
  ∀ c ∈ s.head?, c.isDigit = false ∧ c ≠ '.' ∧ c ≠ 'e' ∧ c ≠ 'E'

theorem digits?_append {ds rest : List Char} (hne : ds ≠ []) (hds : ∀ c ∈ ds, c.isDigit)
    (hrest : ∀ c ∈ rest.head?, c.isDigit = false) : digits? (ds ++ rest) = some (ds, rest) := by
  have htake : rest.takeWhile Char.isDigit = [] := by
    cases rest with
    | nil => rfl
    | cons c rest => simp [hrest c rfl]
  have hdrop : rest.dropWhile Char.isDigit = rest := by
    cases rest with
    | nil => rfl
    | cons c rest => simp [hrest c rfl]
  have hdigits : digits (ds ++ rest) = (ds, rest) := by
    rw [digits, List.takeWhile_append_of_pos hds, List.dropWhile_append_of_pos hds, htake, hdrop,
      List.append_nil]
  rw [digits?, hdigits, if_neg (by simpa using hne)]

/-- Digits that may stand before the point. -/
structure IsWhole (ds : List Char) : Prop where
  ne_nil : ds ≠ []
  isDigit : ∀ c ∈ ds, c.isDigit
  zero : ds.head? = some '0' → ds = ['0']

theorem whole?_append {ds rest : List Char} (h : IsWhole ds)
    (hrest : ∀ c ∈ rest.head?, c.isDigit = false) : whole? (ds ++ rest) = some (ds, rest) := by
  have hzero : ¬ (ds.head? = some '0' ∧ ds ≠ ['0']) := fun ⟨hhead, hne⟩ => hne (h.zero hhead)
  simp only [whole?, digits?_append h.ne_nil h.isDigit hrest, Option.bind_eq_bind,
    Option.bind_some, if_neg hzero]

/-- Digits after a point, or nothing. -/
def pointed : List Char → List Char
  | [] => []
  | d :: ds => '.' :: d :: ds

theorem places?_pointed {ds rest : List Char} (hds : ∀ c ∈ ds, c.isDigit)
    (hrest : ∀ c ∈ rest.head?, c.isDigit = false ∧ c ≠ '.') :
    places? (pointed ds ++ rest) = some (ds, rest) := by
  cases ds with
  | nil =>
    rw [pointed, List.nil_append, places?]
    rintro rest' rfl
    exact (hrest '.' rfl).2 rfl
  | cons d ds => exact digits?_append (List.cons_ne_nil _ _) hds fun c hc => (hrest c hc).1

theorem isDigit_head_pointed {ds rest : List Char}
    (hrest : ∀ c ∈ rest.head?, c.isDigit = false ∧ c ≠ '.') :
    ∀ c ∈ (pointed ds ++ rest).head?, c.isDigit = false := by
  cases ds with
  | nil => exact fun c hc => (hrest c hc).1
  | cons d ds =>
    rintro c ⟨⟩
    rfl

/-- A number is read from its parts. -/
theorem unsigned?_append {whole places s rest : List Char} {e : Option Int} (hwhole : IsWhole whole)
    (hplaces : ∀ c ∈ places, c.isDigit) (hs : ∀ c ∈ s.head?, c.isDigit = false ∧ c ≠ '.')
    (he : exponent? s = some (e, rest)) (negative : Bool) :
    unsigned? negative (whole ++ (pointed places ++ s)) =
      some (numeral negative whole places e, rest) := by
  simp only [unsigned?, whole?_append hwhole (isDigit_head_pointed hs), places?_pointed hplaces hs,
    he, Option.bind_eq_bind, Option.bind_some]

theorem exponent?_of_isDelimited {rest : List Char} (h : IsDelimited rest) :
    exponent? rest = some (none, rest) := by
  cases rest with
  | nil => rfl
  | cons c rest =>
    obtain ⟨-, -, he, hE⟩ := h c rfl
    rw [exponent?]
    · rintro s ⟨⟩
      exact he rfl
    · rintro s ⟨⟩
      exact hE rfl

theorem isDigit_toDigits (n : Nat) : ∀ c ∈ Nat.toDigits 10 n, c.isDigit :=
  fun _ hc => Nat.isDigit_of_mem_toDigits (by decide) (by decide) hc

/-- No superfluous zero is written. -/
theorem head?_toDigits {n : Nat} (hn : n ≠ 0) : (Nat.toDigits 10 n).head? ≠ some '0' := by
  induction n using Nat.strongRecOn with
  | _ n ih =>
    rcases Nat.lt_or_ge n 10 with hlt | hge
    · rw [Nat.toDigits_of_lt_base hlt, List.head?_singleton]
      intro hzero
      exact hn (Nat.digitChar_eq_zero.mp (Option.some.inj hzero))
    · rw [Nat.toDigits_of_base_le (by decide) hge,
        List.head?_append_of_ne_nil _ Nat.toDigits_ne_nil]
      exact ih (n / 10) (by omega) (by omega)

theorem isWhole_toDigits (n : Nat) : IsWhole (Nat.toDigits 10 n) where
  ne_nil := Nat.toDigits_ne_nil
  isDigit := isDigit_toDigits n
  zero hzero := by
    by_cases hn : n = 0
    · rw [hn, Nat.toDigits_zero]
    · exact absurd hzero (head?_toDigits hn)

/-- A number with a point is read from its digits. -/
theorem unsigned?_point {whole places rest : List Char} (hwhole : IsWhole whole) (hne : places ≠ [])
    (hplaces : ∀ c ∈ places, c.isDigit) (hrest : IsDelimited rest) (negative : Bool) :
    unsigned? negative (whole ++ '.' :: places ++ rest) = some (.real (.ofDecimal negative
      (Nat.ofDigitChars 10 (whole ++ places) 0) (-places.length)), rest) := by
  obtain ⟨d, ds, rfl⟩ := List.exists_cons_of_ne_nil hne
  have hread := unsigned?_append hwhole hplaces (fun c hc => ⟨(hrest c hc).1, (hrest c hc).2.1⟩)
    (exponent?_of_isDelimited hrest) negative
  rw [List.append_assoc]
  exact hread

/-- A number below one: zeros may stand between the point and its digits. -/
theorem unsigned?_below_one (n k : Nat) {rest : List Char} (hrest : IsDelimited rest)
    (negative : Bool) :
    unsigned? negative ('0' :: '.' :: (List.replicate k '0' ++ Nat.toDigits 10 n) ++ rest) =
      some (.real (.ofDecimal negative n (-(k + (Nat.toDigits 10 n).length : Nat))), rest) := by
  have hplaces : ∀ c ∈ List.replicate k '0' ++ Nat.toDigits 10 n, c.isDigit := by
    intro c hc
    rcases List.mem_append.mp hc with hc | hc
    · rw [List.eq_of_mem_replicate hc]
      rfl
    · exact isDigit_toDigits n c hc
  have hread := unsigned?_point ⟨List.cons_ne_nil '0' [], by simp, fun _ => rfl⟩
    (by simp [Nat.toDigits_ne_nil]) hplaces hrest negative
  rw [Nat.ofDigitChars_append, Nat.ofDigitChars_append, Nat.ofDigitChars_cons,
    Nat.ofDigitChars_nil, Nat.ofDigitChars_replicate_zero, List.length_append,
    List.length_replicate] at hread
  simpa using hread

/-- An integral number: zeros may stand between its digits and the point. -/
theorem unsigned?_integral {n k : Nat} (hzero : n = 0 → k = 0) {rest : List Char}
    (hrest : IsDelimited rest) (negative : Bool) :
    unsigned? negative (Nat.toDigits 10 n ++ List.replicate k '0' ++ ['.', '0'] ++ rest) =
      some (.real (.ofDecimal negative n k), rest) := by
  have hwhole : IsWhole (Nat.toDigits 10 n ++ List.replicate k '0') := by
    refine ⟨by simp [Nat.toDigits_ne_nil], fun c hc => ?_, fun hhead => ?_⟩
    · rcases List.mem_append.mp hc with hc | hc
      · exact isDigit_toDigits n c hc
      · rw [List.eq_of_mem_replicate hc]
        rfl
    · rw [List.head?_append_of_ne_nil _ Nat.toDigits_ne_nil] at hhead
      obtain rfl : n = 0 := by_contra fun hn => head?_toDigits hn hhead
      rw [hzero rfl]
      rfl
  have hread := unsigned?_point hwhole (List.cons_ne_nil '0' []) (by simp) hrest negative
  have hvalue : Nat.ofDigitChars 10 (Nat.toDigits 10 n ++ List.replicate k '0' ++ ['0']) 0 =
      n * 10 ^ (k + 1) := by
    rw [Nat.ofDigitChars_append, Nat.ofDigitChars_append, Nat.ofDigitChars_ten_toDigits,
      Nat.ofDigitChars_replicate_zero, Nat.ofDigitChars_cons, Nat.ofDigitChars_nil,
      Nat.sub_self]
    ring
  rw [hvalue, show (-(['0'].length : Int)) = k - (k + 1 : Nat) by simp,
    Binary64.ofDecimal_mul_ten_pow] at hread
  exact hread

/-- The point stands among the digits. -/
theorem unsigned?_split {n w : Nat} (hw : 0 < w) (hlt : w < (Nat.toDigits 10 n).length)
    {rest : List Char} (hrest : IsDelimited rest) (negative : Bool) :
    unsigned? negative ((Nat.toDigits 10 n).take w ++ '.' :: (Nat.toDigits 10 n).drop w ++ rest) =
      some (.real (.ofDecimal negative n (w - (Nat.toDigits 10 n).length)), rest) := by
  have hn : n ≠ 0 := by
    rintro rfl
    rw [Nat.toDigits_zero, List.length_singleton] at hlt
    omega
  have hwhole : IsWhole ((Nat.toDigits 10 n).take w) := by
    refine ⟨?_, fun c hc => isDigit_toDigits n c (List.mem_of_mem_take hc), fun hhead => ?_⟩
    · simp [Nat.toDigits_ne_nil, hw.ne']
    · rw [List.head?_take, if_neg hw.ne'] at hhead
      exact absurd hhead (head?_toDigits hn)
  have hread := unsigned?_point hwhole (by simpa using hlt)
    (fun c hc => isDigit_toDigits n c (List.mem_of_mem_drop hc)) hrest negative
  rw [List.take_append_drop, Nat.ofDigitChars_ten_toDigits, List.length_drop,
    Nat.cast_sub hlt.le, neg_sub] at hread
  exact hread

/-- A number with a point reads back. -/
theorem unsigned?_positional {n : Nat} {lead : Int} (hzero : n = 0 → lead = 0) {rest : List Char}
    (hrest : IsDelimited rest) (negative : Bool) :
    unsigned? negative (Layout.positional (Nat.toDigits 10 n) lead ++ rest) =
      some (.real (.ofDecimal negative n (lead + 1 - (Nat.toDigits 10 n).length)), rest) := by
  have hpos := Nat.length_toDigits_pos (b := 10) (n := n)
  rw [Layout.positional]
  split
  · next hlead =>
    rw [show lead + 1 - ((Nat.toDigits 10 n).length : Int) =
      -(lead.natAbs - 1 + (Nat.toDigits 10 n).length : Nat) by omega]
    exact unsigned?_below_one n (lead.natAbs - 1) hrest negative
  · next hlead =>
    dsimp only
    split
    · next hshort =>
      rw [show lead + 1 - ((Nat.toDigits 10 n).length : Int) =
        (lead.natAbs + 1 - (Nat.toDigits 10 n).length : Nat) by omega]
      refine unsigned?_integral ?_ hrest negative
      intro hn
      have := hzero hn
      omega
    · next hlong =>
      rw [show lead + 1 = (lead.natAbs + 1 : Nat) by omega]
      exact unsigned?_split (by omega) (by omega) hrest negative

/-- An exponent reads back. -/
theorem exponent?_mark (lead : Int) {rest : List Char} (hrest : IsDelimited rest) :
    exponent? ((if lead < 0 then ['e', '-'] else 'e' :: "+".toList) ++
      (Nat.toDigits 10 lead.natAbs ++ rest)) = some (some lead, rest) := by
  have hdigits := digits?_append Nat.toDigits_ne_nil (isDigit_toDigits lead.natAbs)
    fun c hc => (hrest c hc).1
  have hvalue := Nat.ofDigitChars_ten_toDigits (n := lead.natAbs)
  split
  · next hlead =>
    have hneg : -(lead.natAbs : Int) = lead := by omega
    simp only [exponent?, exponentValue?, List.cons_append, List.nil_append, hdigits, hvalue,
      Option.map_some, hneg]
  · next hlead =>
    have hnonneg : (lead.natAbs : Int) = lead := by omega
    have hplus : "+".toList = ['+'] := rfl
    simp only [exponent?, exponentValue?, hplus, List.cons_append, List.nil_append, hdigits,
      hvalue, Option.map_some, hnonneg]

/-- A number with an exponent reads back. -/
theorem unsigned?_scientific (n : Nat) (lead : Int) {rest : List Char} (hrest : IsDelimited rest)
    (negative : Bool) :
    unsigned? negative (Layout.scientific "+" (Nat.toDigits 10 n) lead ++ rest) =
      some (.real (.ofDecimal negative n (lead + 1 - (Nat.toDigits 10 n).length)), rest) := by
  have hstop : ∀ c ∈ ((if lead < 0 then ['e', '-'] else 'e' :: "+".toList) ++
      (Nat.toDigits 10 lead.natAbs ++ rest)).head?, c.isDigit = false ∧ c ≠ '.' := by
    split <;> simp
  obtain ⟨d, ds, hds⟩ := List.exists_cons_of_ne_nil (Nat.toDigits_ne_nil (b := 10) (n := n))
  have hdigits := isDigit_toDigits n
  have hvalue := Nat.ofDigitChars_ten_toDigits (n := n)
  rw [hds] at hdigits hvalue ⊢
  have hwhole : IsWhole [d] :=
    ⟨List.cons_ne_nil _ _, by simpa using hdigits d, fun h => by simpa using h⟩
  have hread := unsigned?_append hwhole (fun c hc => hdigits c (List.mem_cons_of_mem d hc)) hstop
    (exponent?_mark lead hrest) negative
  have htext : Layout.scientific "+" (d :: ds) lead ++ rest = [d] ++ (pointed ds ++
      ((if lead < 0 then ['e', '-'] else 'e' :: "+".toList) ++
        (Nat.toDigits 10 lead.natAbs ++ rest))) := by
    cases ds <;> simp [Layout.scientific, pointed]
  rw [htext, hread, numeral, List.singleton_append, hvalue, List.length_cons]
  congr 4
  omega

/-- **A number reads back** as the decimal that is written for it. -/
theorem unsigned?_write {s : Shortest} (hs : s.digits = 0 → s.exponent = 0) {rest : List Char}
    (hrest : IsDelimited rest) (negative : Bool) :
    unsigned? negative (Datum.layout.write s ++ rest) =
      some (.real (.ofDecimal negative s.digits s.exponent), rest) := by
  have hlead : s.exponent + (Nat.toDigits 10 s.digits).length - 1 + 1 -
      (Nat.toDigits 10 s.digits).length = s.exponent := by omega
  rw [Layout.write]
  split
  · have hzero : s.digits = 0 → s.exponent + (Nat.toDigits 10 s.digits).length - 1 = 0 := by
      intro hdigits
      rw [hs hdigits, hdigits]
      rfl
    rw [unsigned?_positional hzero hrest, hlead]
  · exact (unsigned?_scientific _ _ hrest negative).trans (by rw [hlead])

theorem exists_isDigit_of_unsigned? {negative : Bool} {s : List Char} {p : Datum × List Char}
    (h : unsigned? negative s = some p) : ∃ c rest, s = c :: rest ∧ c.isDigit := by
  cases s with
  | nil => cases h
  | cons c rest =>
    refine ⟨c, rest, rfl, ?_⟩
    by_contra hc
    simp [unsigned?, whole?, digits?, digits, hc] at h

/-- A digit starts nothing but a number. -/
theorem value?_of_isDigit {c : Char} (hc : c.isDigit) (fuel : Nat) (rest : List Char) :
    value? (fuel + 1) (c :: rest) = unsigned? false (c :: rest) := by
  have hblank : isBlank c = false := by
    by_contra hblank
    simp only [isBlank, Bool.not_eq_false, Bool.or_eq_true, beq_iff_eq] at hblank
    rcases hblank with ((rfl | rfl) | rfl) | rfl <;> cases hc
  have hnumber : number? (c :: rest) = unsigned? false (c :: rest) := by
    rw [number?]
    rintro rest' ⟨⟩
    cases hc
  rw [value?, skipBlanks_cons hblank]
  split
  case h_7 => exact hnumber
  all_goals
    next heq =>
    cases heq
    cases hc

/-- A number reads back as a datum. -/
theorem value?_of_unsigned? {negative : Bool} {s : List Char} {p : Datum × List Char}
    (h : unsigned? negative s = some p) (fuel : Nat) :
    value? (fuel + 1) ((if negative then ['-'] else []) ++ s) = some p := by
  cases negative with
  | true => exact h
  | false =>
    obtain ⟨c, rest, rfl, hc⟩ := exists_isDigit_of_unsigned? h
    exact (value?_of_isDigit hc fuel rest).trans h

theorem value?_integerText (i : Int) {rest : List Char} (hrest : IsDelimited rest) (fuel : Nat) :
    value? (fuel + 1) (Datum.integerText i ++ rest) = some (.integer i, rest) := by
  have hread := unsigned?_append (isWhole_toDigits i.natAbs) (List.forall_mem_nil _)
    (fun c hc => ⟨(hrest c hc).1, (hrest c hc).2.1⟩) (exponent?_of_isDelimited hrest) (i < 0)
  have hvalue := Nat.ofDigitChars_ten_toDigits (n := i.natAbs)
  have hsign : (if decide (i < 0) then -(i.natAbs : Int) else i.natAbs) = i := by
    simp only [decide_eq_true_eq]
    split <;> omega
  rw [numeral, List.isEmpty_nil, if_pos rfl, hvalue, hsign] at hread
  have hvalue := value?_of_unsigned? hread fuel
  simp only [decide_eq_true_eq] at hvalue
  rw [Datum.integerText, List.append_assoc]
  exact hvalue

theorem value?_realText {x : Binary64} (h : x.IsFinite) {rest : List Char}
    (hrest : IsDelimited rest) (fuel : Nat) :
    value? (fuel + 1) (Datum.realText x ++ rest) = some (.real x, rest) := by
  cases x with
  | finite negative m e =>
    have hread := unsigned?_write (Binary64.shortest_exponent_of_digits h) hrest negative
    rw [Binary64.ofDecimal_shortest h] at hread
    rw [Datum.realText, Binary64.written, String.toList_ofList, List.append_assoc]
    exact value?_of_unsigned? hread fuel
  | infinite _ => exact h.elim
  | nan _ => exact h.elim

end Json

/-! ## Data -/

/-- Data that can be written without loss: its numbers are finite. -/
inductive Datum.IsWritable : Datum → Prop
  | null : IsWritable .null
  | bool (b : Bool) : IsWritable (.bool b)
  | integer (i : Int) : IsWritable (.integer i)
  | real {x : Binary64} (h : x.IsFinite) : IsWritable (.real x)
  | text (s : String) : IsWritable (.text s)
  | list {items : List Datum} (h : ∀ d ∈ items, IsWritable d) : IsWritable (.list items)
  | record {members : List (String × Datum)} (h : ∀ p ∈ members, IsWritable p.2) :
    IsWritable (.record members)

namespace Json

/-- A datum reads back at any level, whatever follows it. -/
def ReadsBack (d : Datum) : Prop :=
  ∀ (level fuel : Nat) (rest : List Char), (d.write level).length < fuel → IsDelimited rest →
    value? fuel (d.write level ++ rest) = some (d, rest)

theorem isDelimited_newLine (level : Nat) (rest : List Char) :
    IsDelimited (Datum.newLine level ++ rest) := by
  rintro c ⟨⟩
  exact ⟨rfl, by decide, by decide, by decide⟩

theorem isDelimited_comma (rest : List Char) : IsDelimited (',' :: rest) := by
  rintro c ⟨⟩
  exact ⟨rfl, by decide, by decide, by decide⟩

/-- No datum starts with the bracket that closes a list. -/
theorem skipBlanks_ne_bracket {fuel : Nat} {s : List Char} {p : Datum × List Char}
    (h : value? fuel s = some p) (t : List Char) : skipBlanks s ≠ ']' :: t := by
  intro hs
  cases fuel with
  | zero => cases h
  | succ fuel =>
    rw [value?, hs] at h
    cases h

section Lists

variable {item : Datum} {items : List Datum}

theorem isDelimited_writeItems (level level' : Nat) (rest : List Char) :
    IsDelimited (Datum.writeItems level items ++ (Datum.newLine level' ++ rest)) := by
  cases items with
  | nil => exact isDelimited_newLine level' rest
  | cons item items => exact isDelimited_comma _

/-- The elements of a list read back if each of them does. -/
theorem items?_write (h : ∀ d ∈ item :: items, ReadsBack d) (level level' : Nat) {fuel : Nat}
    (rest : List Char)
    (hfuel : (item.write level).length + (Datum.writeItems level items).length + 1 < fuel) :
    items? fuel (Datum.newLine level ++ (item.write level ++ (Datum.writeItems level items ++
      (Datum.newLine level' ++ ']' :: rest)))) = some (item :: items, rest) := by
  obtain ⟨fuel, rfl⟩ := Nat.exists_eq_succ_of_ne_zero (Nat.ne_zero_of_lt hfuel)
  induction items generalizing item fuel with
  | nil =>
    have hitem := h item List.mem_cons_self level fuel
      (Datum.writeItems level [] ++ (Datum.newLine level' ++ ']' :: rest)) (by omega)
      (isDelimited_writeItems level level' _)
    rw [items?, value?_newLine, hitem]
    simp only [Datum.writeItems, List.nil_append, Option.bind_eq_bind, Option.bind_some]
    rw [skipBlanks_newLine, skipBlanks_cons rfl]
    rfl
  | cons item' items ih =>
    have hitem := h item List.mem_cons_self level fuel
      (Datum.writeItems level (item' :: items) ++ (Datum.newLine level' ++ ']' :: rest)) (by omega)
      (isDelimited_writeItems level level' _)
    rw [items?, value?_newLine, hitem]
    simp only [Datum.writeItems, List.length_cons, List.length_append] at hfuel
    obtain ⟨fuel, rfl⟩ := Nat.exists_eq_succ_of_ne_zero (show fuel ≠ 0 by omega)
    have hitems := ih (fun d hd => h d (List.mem_cons_of_mem _ hd)) fuel (by omega)
    simp only [Datum.writeItems, Option.bind_eq_bind, Option.bind_some, List.cons_append,
      List.append_assoc]
    rw [skipBlanks_cons rfl]
    simp only [hitems, Option.map_some]

theorem readsBack_list (h : ∀ d ∈ items, ReadsBack d) : ReadsBack (.list items) := by
  intro level fuel rest hfuel hrest
  obtain ⟨fuel, rfl⟩ := Nat.exists_eq_succ_of_ne_zero (Nat.ne_zero_of_lt hfuel)
  cases items with
  | nil => rw [Datum.write]; rfl
  | cons item items =>
    simp only [Datum.write, List.length_cons, List.length_append, Datum.newLine] at hfuel
    have hitems := items?_write h (level + 1) level rest (show _ < fuel by omega)
    have hitem := h item List.mem_cons_self (level + 1) fuel (Datum.writeItems (level + 1) items ++
      (Datum.newLine level ++ ']' :: rest)) (by omega) (isDelimited_writeItems _ _ _)
    simp only [Datum.write, List.cons_append, List.append_assoc, List.nil_append]
    rw [value?, skipBlanks_cons rfl]
    simp only [hitems, Option.map_some]
    rw [skipBlanks_newLine]
    split
    · next heq => exact absurd heq (skipBlanks_ne_bracket hitem _)
    · rfl

end Lists

section Records

variable {key : String} {value : Datum} {members : List (String × Datum)}

theorem isDelimited_writeMembers (level level' : Nat) (rest : List Char) :
    IsDelimited (Datum.writeMembers level members ++ (Datum.newLine level' ++ rest)) := by
  cases members with
  | nil => exact isDelimited_newLine level' rest
  | cons member members => exact isDelimited_comma _

/-- One member reads back, up to what follows it. -/
theorem members?_member (h : ReadsBack value) (level : Nat) {fuel : Nat} {rest : List Char}
    (hfuel : (value.write level).length < fuel) (hrest : IsDelimited rest) :
    members? (fuel + 1) (Datum.newLine level ++ (Datum.quoted key ++ (':' :: ' ' ::
      (value.write level ++ rest)))) =
      match skipBlanks rest with
      | ',' :: rest =>
        (members? fuel rest).map fun (members, rest) => ((key, value) :: members, rest)
      | '\x7d' :: rest => some ([(key, value)], rest)
      | _ => none := by
  have htext := text?_escaped key (':' :: ' ' :: (value.write level ++ rest))
  have hvalue : value? fuel (' ' :: (value.write level ++ rest)) = some (value, rest) := by
    rw [← h level fuel rest hfuel hrest]
    cases fuel <;> rfl
  rw [members?, skipBlanks_newLine]
  simp only [Datum.quoted, List.cons_append, List.append_assoc, List.nil_append]
  rw [skipBlanks_cons rfl]
  simp only [htext, Option.bind_eq_bind, Option.bind_some]
  rw [skipBlanks_cons rfl]
  simp only [hvalue, Option.bind_some]

/-- The members of a record read back if the data in each of them does. -/
theorem members?_write (h : ∀ p ∈ (key, value) :: members, ReadsBack p.2) (level level' : Nat)
    {fuel : Nat} (rest : List Char)
    (hfuel : (value.write level).length + (Datum.writeMembers level members).length + 1 < fuel) :
    members? fuel (Datum.newLine level ++ (Datum.quoted key ++ (':' :: ' ' ::
      (value.write level ++ (Datum.writeMembers level members ++
        (Datum.newLine level' ++ '\x7d' :: rest)))))) = some ((key, value) :: members, rest) := by
  obtain ⟨fuel, rfl⟩ := Nat.exists_eq_succ_of_ne_zero (Nat.ne_zero_of_lt hfuel)
  induction members generalizing key value fuel with
  | nil =>
    have hvalue : ReadsBack value := h _ List.mem_cons_self
    rw [members?_member hvalue level (by omega)
      (isDelimited_writeMembers level level' _), Datum.writeMembers, List.nil_append,
      skipBlanks_newLine, skipBlanks_cons rfl]
    rfl
  | cons member members ih =>
    have hvalue : ReadsBack value := h _ List.mem_cons_self
    rw [members?_member hvalue level (by omega) (isDelimited_writeMembers level level' _)]
    simp only [Datum.writeMembers, List.length_cons, List.length_append] at hfuel
    obtain ⟨fuel, rfl⟩ := Nat.exists_eq_succ_of_ne_zero (show fuel ≠ 0 by omega)
    have hmembers := ih (fun p hp => h p (List.mem_cons_of_mem _ hp)) fuel (by omega)
    simp only [Datum.writeMembers, List.cons_append, List.append_assoc, List.nil_append]
    rw [skipBlanks_cons rfl]
    simp only [hmembers, Option.map_some]

theorem readsBack_record (h : ∀ p ∈ members, ReadsBack p.2) : ReadsBack (.record members) := by
  intro level fuel rest hfuel hrest
  obtain ⟨fuel, rfl⟩ := Nat.exists_eq_succ_of_ne_zero (Nat.ne_zero_of_lt hfuel)
  cases members with
  | nil => rw [Datum.write]; rfl
  | cons member members =>
    simp only [Datum.write, List.length_cons, List.length_append, Datum.newLine] at hfuel
    have hmembers := members?_write h (level + 1) level rest (show _ < fuel by omega)
    simp only [Datum.write, List.cons_append, List.append_assoc, List.nil_append]
    rw [value?, skipBlanks_cons rfl]
    simp only [hmembers, Option.map_some]
    rw [skipBlanks_newLine]
    rfl

end Records

theorem value?_quoted (s : String) (rest : List Char) (fuel : Nat) :
    value? (fuel + 1) (Datum.quoted s ++ rest) = some (.text s, rest) := by
  have htext := text?_escaped s rest
  rw [Datum.quoted, List.cons_append, List.append_assoc, List.singleton_append, value?,
    skipBlanks_cons rfl]
  simp only [htext, Option.map_some]

/-- Data without parts is read at once. -/
theorem readsBack_of_succ {d : Datum} (h : ∀ level fuel rest, IsDelimited rest →
    value? (fuel + 1) (d.write level ++ rest) = some (d, rest)) : ReadsBack d := by
  intro level fuel rest hfuel hrest
  obtain ⟨fuel, rfl⟩ := Nat.exists_eq_succ_of_ne_zero (Nat.ne_zero_of_lt hfuel)
  exact h level fuel rest hrest

/-- What is written reads back at any level. -/
theorem readsBack_of_isWritable {d : Datum} (h : d.IsWritable) : ReadsBack d := by
  induction h with
  | list _ ih => exact readsBack_list ih
  | record _ ih => exact readsBack_record ih
  | null =>
    refine readsBack_of_succ fun level fuel rest _ => ?_
    rw [Datum.write, value?]
    rfl
  | bool b =>
    refine readsBack_of_succ fun level fuel rest _ => ?_
    rw [Datum.write, value?]
    cases b <;> rfl
  | integer i =>
    refine readsBack_of_succ fun level fuel rest hrest => ?_
    rw [Datum.write]
    exact value?_integerText i hrest fuel
  | real h =>
    refine readsBack_of_succ fun level fuel rest hrest => ?_
    rw [Datum.write]
    exact value?_realText h hrest fuel
  | text s =>
    refine readsBack_of_succ fun level fuel rest _ => ?_
    rw [Datum.write]
    exact value?_quoted s rest fuel

/-- **What is written reads back**, as a whole text. -/
theorem read?_render {d : Datum} (h : d.IsWritable) : read? d.render = some d := by
  have hvalue := readsBack_of_isWritable h 0 ((d.write 0).length + 1) [] (by omega)
    (fun c hc => by cases hc)
  rw [List.append_nil] at hvalue
  simp only [read?, Datum.render, String.toList_ofList, hvalue, Option.bind_eq_bind,
    Option.bind_some]
  rfl

example : (read? " [-12, 2.50E1, \"\\u00e9\\ud83d\\ude00\\/\" ] \n").map Datum.render =
    some "[\n  -12,\n  25.0,\n  \"é😀/\"\n]" := by
  decide +kernel

example : read? "[1,]" = none ∧ read? "01" = none ∧ read? "\"\n\"" = none := by
  decide +kernel

end Json

end ScriptLint
