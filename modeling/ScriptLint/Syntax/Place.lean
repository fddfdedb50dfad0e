import ScriptLint.Syntax.Lexer
import ScriptLint.Text.Line

/-!
# Where tokens stand

Whatever is skipped or read as a token, the text after it is the rest of the same text, and its
offset counts the bytes before it. A token is also told apart by what stands at its start: a word by
its characters, as long as it is written without escapes, a sign by its spelling, and a string by
its quote. Where a token has ended, no name starts in the middle of a longer one or of a word.

## Main definitions

* `Cursor.Leads` — a cursor stands at or after another one in the same text
* `Cursor.Opens` — no name starts at a cursor right after a character of a name or word
* `Token.SpelledAt`, `Word` — what stands where a token starts
* `Scan.At` — a token that was read at a cursor
* `Token.StandsIn` — a token that stands in a text, with the places where it starts and ends

## Main results

* `Cursor.leads_skipTrivia` — skipping space leads on
* `Lexer.scan_at` — the token at a cursor stands there
* `Lexer.scanRegex_at`, `Lexer.scanElementText_at`, `Lexer.scanElementString_at`,
  `Lexer.leads_templatePiece` — the same for the other readings
-/

namespace ScriptLint.Syntax

open Text

/-! ## Cursors -/

namespace Cursor

/-- The cursor `d` stands at or after `c` in the same text. -/
def Leads (c d : Cursor) : Prop :=
  ∃ between, c.rest = between ++ d.rest ∧ d.pos = c.pos + byteSize between

theorem Leads.refl (c : Cursor) : c.Leads c :=
  ⟨[], rfl, rfl⟩

theorem Leads.trans {c d e : Cursor} (h : c.Leads d) (h' : d.Leads e) : c.Leads e := by
  obtain ⟨s, hs, hpos⟩ := h
  obtain ⟨t, ht, hpos'⟩ := h'
  refine ⟨s ++ t, by rw [hs, ht, List.append_assoc], ?_⟩
  rw [hpos', hpos, byteSize_append, Nat.add_assoc]

theorem leads_of_eq_append {c : Cursor} {between rest : List Char} (h : c.rest = between ++ rest)
    {pos : Nat} (hpos : pos = c.pos + byteSize between) : c.Leads ⟨rest, pos⟩ :=
  ⟨between, h, hpos⟩

theorem leads_of_eq_cons {c : Cursor} {d : Char} {rest : List Char} (h : c.rest = d :: rest) :
    c.Leads ⟨rest, c.pos + d.utf8Size⟩ :=
  ⟨[d], h, by simp⟩

theorem leads_drop {c : Cursor} {n : Nat} (h : byteSize (c.rest.take n) = n) : c.Leads (c.drop n) :=
  ⟨c.rest.take n, (List.take_append_drop n c.rest).symm, by rw [h, drop]⟩

theorem takeWhileFrom_eq (p : Char → Bool) (cs : List Char) (pos : Nat) :
    takeWhileFrom p cs pos =
      (cs.takeWhile p, ⟨cs.dropWhile p, pos + byteSize (cs.takeWhile p)⟩) := by
  induction cs generalizing pos with
  | nil => rfl
  | cons c cs ih =>
    rw [takeWhileFrom, List.takeWhile_cons, List.dropWhile_cons]
    split
    · rw [ih, byteSize_cons, Nat.add_assoc]
    · rfl

theorem takeWhile_eq (p : Char → Bool) (c : Cursor) :
    c.takeWhile p =
      (c.rest.takeWhile p, ⟨c.rest.dropWhile p, c.pos + byteSize (c.rest.takeWhile p)⟩) :=
  takeWhileFrom_eq p c.rest c.pos

theorem leads_takeWhile (p : Char → Bool) (c : Cursor) : c.Leads (c.takeWhile p).2 := by
  rw [takeWhile_eq]
  exact leads_of_eq_append List.takeWhile_append_dropWhile.symm rfl

theorem leads_skipFrom (gap : Gap) (cs : List Char) (pos : Nat) (newline : Bool)
    (faults : List Fault) : Leads ⟨cs, pos⟩ (skipFrom gap cs pos newline faults).after := by
  induction cs generalizing gap pos newline faults with
  | nil => exact .refl _
  | cons c rest ih =>
    have hstep : ∀ gap newline faults,
        Leads ⟨c :: rest, pos⟩ (skipFrom gap rest (pos + c.utf8Size) newline faults).after :=
      fun gap newline faults => .trans (leads_of_eq_cons rfl) (ih gap _ newline faults)
    cases gap with
    | blank =>
      unfold skipFrom
      dsimp only
      repeat' split
      all_goals first | exact hstep _ _ _ | exact .refl _
    | line =>
      unfold skipFrom
      dsimp only
      split <;> exact hstep _ _ _
    | blockStart => exact hstep _ _ _
    | block =>
      unfold skipFrom
      dsimp only
      split <;> exact hstep _ _ _
    | blockEnd => exact hstep _ _ _

/-- **Skipping space leads on.** -/
theorem leads_skipTrivia (c : Cursor) (atStart : Bool) : c.Leads (c.skipTrivia atStart).after :=
  leads_skipFrom ..

/-! ## Where names can start -/

/-- No name starts at the cursor right after a character of a name or word. -/
def Opens (text : List Char) (c : Cursor) : Prop :=
  ∀ before, text = before ++ c.rest → before.getLast?.any isWordPart = true →
    c.rest.head?.any isNameStart = false

/-- Between two places in a text: no name starts at the second one, or what stands between them ends
with a character that no name or word holds. -/
def Parts (cs ds : List Char) : Prop :=
  ds.head?.any isNameStart = false ∨ ∃ between x, cs = between ++ x :: ds ∧ isWordPart x = false

theorem Parts.cons {cs ds : List Char} (h : Parts cs ds) (c : Char) : Parts (c :: cs) ds := by
  obtain h | ⟨between, x, rfl, hx⟩ := h
  · exact .inl h
  · exact .inr ⟨c :: between, x, rfl, hx⟩

theorem Parts.of_leads {c d : Cursor} {ds : List Char} (h : Parts d.rest ds) (hlead : c.Leads d) :
    Parts c.rest ds := by
  obtain ⟨between, hrest, -⟩ := hlead
  rw [hrest]
  clear hrest
  induction between with
  | nil => exact h
  | cons x between ih => exact ih.cons x

theorem parts_of_head {cs ds : List Char} (h : ∀ d ∈ ds.head?, isNamePart d = false) :
    Parts cs ds := by
  refine .inl ?_
  cases ds with
  | nil => rfl
  | cons d ds =>
    refine Bool.eq_false_iff.mpr fun hstart => ?_
    have := isNamePart_of_isNameStart hstart
    rw [h d rfl] at this
    cases this

theorem opens_of_parts {text : List Char} {c d : Cursor} (hc : Leads ⟨text, 0⟩ c)
    (h : Parts c.rest d.rest) : d.Opens text := by
  intro before hbefore hlast
  obtain h | ⟨between, x, hx, hname⟩ := h
  · exact h
  · obtain ⟨first, hfirst, -⟩ := hc
    have hsplit : (first ++ between ++ [x]) ++ d.rest = before ++ d.rest := by
      rw [← hbefore, show text = first ++ c.rest from hfirst, hx]
      simp
    obtain rfl := List.append_cancel_right hsplit
    simp [hname] at hlast

theorem opens_start (text : List Char) : Opens text ⟨text, 0⟩ := by
  intro before hbefore hlast
  obtain rfl : before = [] := by simpa using hbefore
  cases hlast

/-- Space that was skipped ends where it started, or after a character that no name or word holds, or
at the end of the text. -/
theorem parts_skipFrom (gap : Gap) (cs : List Char) (pos : Nat) (newline : Bool)
    (faults : List Fault) (hend : gap = .blockEnd → cs.head? = some '/') :
    gap = .blank ∧ (skipFrom gap cs pos newline faults).after.rest = cs ∨
      Parts cs (skipFrom gap cs pos newline faults).after.rest := by
  induction cs generalizing gap pos newline faults with
  | nil => exact .inr (.inl rfl)
  | cons c rest ih =>
    have hstep : ∀ gap newline faults, (gap = .blockEnd → rest.head? = some '/') →
        (gap = .blank → isWordPart c = false) →
        Parts (c :: rest) (skipFrom gap rest (pos + c.utf8Size) newline faults).after.rest := by
      intro gap newline faults hend hblank
      obtain ⟨hgap, hrest⟩ | hparts := ih gap (pos + c.utf8Size) newline faults hend
      · exact .inr ⟨[], c, by rw [hrest]; rfl, hblank hgap⟩
      · exact hparts.cons c
    cases gap with
    | blank =>
      unfold skipFrom
      dsimp only
      split
      · next hbreak => exact .inr (hstep _ _ _ nofun fun _ => isWordPart_of_isLineBreak hbreak)
      split
      · next hgap => exact .inr (hstep _ _ _ nofun fun _ => isWordPart_of_isGap hgap)
      repeat' split
      all_goals first | exact .inr (hstep _ _ _ nofun nofun) | exact .inl ⟨rfl, rfl⟩
    | line =>
      unfold skipFrom
      dsimp only
      split
      · next hbreak => exact .inr (hstep _ _ _ nofun fun _ => isWordPart_of_isLineBreak hbreak)
      · exact .inr (hstep _ _ _ nofun nofun)
    | blockStart => exact .inr (hstep _ _ _ nofun nofun)
    | block =>
      unfold skipFrom
      dsimp only
      split
      · next hstar =>
        exact .inr (hstep _ _ _ (fun _ => eq_of_beq (Bool.and_eq_true_iff.mp hstar).2) nofun)
      · exact .inr (hstep _ _ _ nofun nofun)
    | blockEnd =>
      obtain rfl : c = '/' := Option.some.inj (hend rfl)
      exact .inr (hstep _ _ _ nofun fun _ => rfl)

/-- **After skipped space, no name starts in the middle of a longer one.** -/
theorem Opens.skipTrivia {text : List Char} {c : Cursor} (h : c.Opens text)
    (hc : Leads ⟨text, 0⟩ c) (atStart : Bool) : (c.skipTrivia atStart).after.Opens text := by
  obtain ⟨-, hrest⟩ | hparts := parts_skipFrom .blank c.rest c.pos atStart [] nofun
  · intro before hbefore
    rw [Cursor.skipTrivia, hrest] at hbefore
    rw [Cursor.skipTrivia, hrest]
    exact h before hbefore
  · exact opens_of_parts hc hparts

/-- Space starts with a character that no name or word holds. -/
theorem skipTrivia_eq_or (c : Cursor) (atStart : Bool) :
    (c.skipTrivia atStart).after = c ∨ ∀ x ∈ c.rest.head?, isWordPart x = false := by
  obtain ⟨rest, pos⟩ := c
  cases rest with
  | nil => exact .inr nofun
  | cons x rest =>
    have hhead : isWordPart x = false →
        ∀ y ∈ (x :: rest).head?, isWordPart y = false := fun h y hy => Option.some.inj hy ▸ h
    rw [skipTrivia, skipFrom]
    dsimp only
    split
    · next hbreak => exact .inr (hhead (isWordPart_of_isLineBreak hbreak))
    split
    · next hgap => exact .inr (hhead (isWordPart_of_isGap hgap))
    split
    · next h => exact .inr (hhead (by rw [eq_of_beq (Bool.and_eq_true_iff.mp h).1]; rfl))
    split
    · next h => exact .inr (hhead (by rw [eq_of_beq (Bool.and_eq_true_iff.mp h).1]; rfl))
    split
    · next h =>
      simp only [Bool.or_eq_true, Bool.and_eq_true, beq_iff_eq] at h
      obtain ⟨rfl, -⟩ | ⟨⟨-, rfl⟩, -⟩ := h <;> exact .inr (hhead rfl)
    split
    · next h =>
      simp only [Bool.or_eq_true, Bool.and_eq_true, beq_iff_eq] at h
      obtain ⟨⟨-, (rfl | rfl) | rfl⟩, -⟩ := h <;> exact .inr (hhead rfl)
    · exact .inl rfl

end Cursor

/-! ## Spelling -/

/-- What stands where a token starts, as far as the token tells it. -/
def Token.SpelledAt (rest : List Char) : Token → Prop
  | punct sign => ∃ after, rest = sign.text.toList ++ after
  | string _ _ => ∃ quote after, rest = quote :: after ∧ (quote = '"' ∨ quote = '\'')
  | _ => True

/-- A word is written between two places, with or without escapes. -/
structure Word (name : String) (start after : Cursor) : Prop where
  lt : start.pos < after.pos
  starts : ∃ c ∈ start.rest.head?, isNameStart c = true ∨ c = '\\'
  ends : ∀ c ∈ after.rest.head?, isNamePart c = false
  solid : ∀ c ∈ name.toList, isNamePart c = true
  spelled : start.rest = name.toList ++ after.rest ∨
    (start.rest.dropWhile isNamePart).head? = some '\\'

/-- If a token is a word, it is written between two places. -/
def Token.WordBetween (token : Token) (start after : Cursor) : Prop :=
  ∀ name keyword, token = .word name keyword → Word name start after

/-- A token that was read at a cursor. -/
structure Scan.At (c : Cursor) (scan : Scan) : Prop where
  leads : c.Leads scan.after
  spelled : scan.token.SpelledAt c.rest
  word : scan.token.WordBetween c scan.after
  parts : scan.token.isInvalid = false → Cursor.Parts c.rest scan.after.rest

namespace Lexer

open Cursor

/-! ## Escapes -/

theorem utf8Size_of_lt {c : Char} (h : c.toNat < 0x80) : c.utf8Size = 1 := by
  rw [Char.utf8Size]
  refine if_pos ?_
  rw [UInt32.le_iff_toNat_le]
  exact Nat.le_of_lt_succ h

theorem utf8Size_of_hexValue? {c : Char} {v : Nat} (h : hexValue? c = some v) :
    c.utf8Size = 1 := by
  refine utf8Size_of_lt ?_
  have hle : ∀ d : Char, c ≤ d → c.toNat ≤ d.toNat := fun d h => h
  rw [hexValue?] at h
  split at h
  · next hc => 
    have := hle '9' (by simpa using (Bool.and_eq_true_iff.mp hc).2)
    exact Nat.lt_of_le_of_lt this (by decide)
  · split at h
    · next hc => 
      have := hle 'f' (by simpa using (Bool.and_eq_true_iff.mp hc).2)
      exact Nat.lt_of_le_of_lt this (by decide)
    · split at h
      · next hc => 
        have := hle 'F' (by simpa using (Bool.and_eq_true_iff.mp hc).2)
        exact Nat.lt_of_le_of_lt this (by decide)
      · cases h

theorem leads_hexDigits {n value : Nat} {c : Cursor} {r : Nat × Cursor}
    (h : hexDigits n value c = .ok r) : c.Leads r.2 := by
  induction n generalizing value c with
  | zero =>
    obtain rfl := Except.ok.inj h
    exact .refl c
  | succ n ih =>
    rw [hexDigits] at h
    split at h
    · cases h
    · next d rest hrest =>
      split at h
      · next v hv =>
        have hd := leads_of_eq_cons hrest
        rw [utf8Size_of_hexValue? hv] at hd
        exact hd.trans (ih h)
      · cases h

theorem leads_bracedDigits {value : Nat} {some? : Bool} {cs : List Char} {pos : Nat}
    {r : Nat × Cursor} (h : bracedDigits value some? cs pos = .ok r) : Leads ⟨cs, pos⟩ r.2 := by
  induction cs generalizing value some? pos with
  | nil => cases h
  | cons d rest ih =>
    rw [bracedDigits] at h
    split at h
    · next hd =>
      split at h
      · obtain rfl := Except.ok.inj h
        obtain rfl := eq_of_beq hd
        exact leads_of_eq_cons (c := ⟨_, pos⟩) rfl
      · cases h
    · split at h
      · next v hv =>
        split at h
        · cases h
        · have hd : Leads ⟨d :: rest, pos⟩ ⟨rest, pos + d.utf8Size⟩ := leads_of_eq_cons rfl
          rw [utf8Size_of_hexValue? hv] at hd
          exact hd.trans (ih h)
      · cases h

theorem leads_unicodeEscape {c : Cursor} {r : Nat × Cursor} (h : unicodeEscape c = .ok r) :
    c.Leads r.2 := by
  rw [unicodeEscape] at h
  split at h
  · next rest hrest =>
    cases hdigits : bracedDigits 0 false rest (c.pos + 1) with
    | error e =>
      rw [hdigits] at h
      cases h
    | ok r' =>
      rw [hdigits] at h
      obtain rfl := Except.ok.inj h
      exact .trans (leads_of_eq_cons hrest) (leads_bracedDigits hdigits)
  · cases hdigits : hexDigits 4 0 c with
    | error e =>
      rw [hdigits] at h
      cases h
    | ok r' =>
      rw [hdigits] at h
      obtain rfl := Except.ok.inj h
      exact leads_hexDigits hdigits

/-! ## Words -/

theorem leads_escapedWord {budget : Nat} {acc : List Char} {c : Cursor} {r : List Char × Cursor}
    (h : escapedWord budget acc c = .ok r) : c.Leads r.2 := by
  induction budget generalizing acc c with
  | zero => cases h
  | succ budget ih =>
    rw [escapedWord] at h
    split at h
    · obtain rfl := Except.ok.inj h
      exact .refl c
    · next rest hrest =>
      split at h
      · cases h
      · next n after hescape =>
        have hu : c.Leads ⟨rest, c.pos + 2⟩ := ⟨['\\', 'u'], hrest, rfl⟩
        have hafter := hu.trans (leads_unicodeEscape hescape)
        dsimp only at h
        generalize (if acc.isEmpty then isNameStart _ else isNamePart _) = valid at h
        cases valid with
        | true => exact hafter.trans (ih h)
        | false => cases h
    · cases h
    · next d rest _ _ hrest =>
      split at h
      · exact .trans (leads_of_eq_cons hrest) (ih h)
      · obtain rfl := Except.ok.inj h
        exact .refl c

/-- A word with escapes ends where neither a character of a name nor an escape follows. -/
theorem head_escapedWord {budget : Nat} {acc : List Char} {c : Cursor} {r : List Char × Cursor}
    (h : escapedWord budget acc c = .ok r) :
    ∀ d ∈ r.2.rest.head?, isNamePart d = false ∧ d ≠ '\\' := by
  induction budget generalizing acc c with
  | zero => cases h
  | succ budget ih =>
    rw [escapedWord] at h
    split at h
    · next hrest =>
      obtain rfl := Except.ok.inj h
      simp [hrest]
    · split at h
      · cases h
      · dsimp only at h
        generalize (if acc.isEmpty then isNameStart _ else isNamePart _) = valid at h
        cases valid with
        | true => exact ih h
        | false => cases h
    · cases h
    · next d rest hslash hslash' hrest =>
      split at h
      · exact ih h
      · next hpart =>
        obtain rfl := Except.ok.inj h
        intro e he
        obtain rfl : d = e := by simpa [hrest] using he
        refine ⟨Bool.eq_false_iff.mpr hpart, ?_⟩
        rintro rfl
        exact hslash' rfl

/-- A word with escapes spells characters of names only. -/
theorem all_escapedWord {budget : Nat} {acc : List Char} {c : Cursor} {r : List Char × Cursor}
    (h : escapedWord budget acc c = .ok r) (hacc : ∀ d ∈ acc, isNamePart d = true) :
    ∀ d ∈ r.1, isNamePart d = true := by
  have hdone : ∀ d ∈ acc.reverse, isNamePart d = true := fun d hd =>
    hacc d (List.mem_reverse.mp hd)
  induction budget generalizing acc c with
  | zero => cases h
  | succ budget ih =>
    have hnext : ∀ d c', isNamePart d = true → escapedWord budget (d :: acc) c' = .ok r →
        ∀ d ∈ r.1, isNamePart d = true := by
      intro d c' hd h
      have hacc' : ∀ e ∈ d :: acc, isNamePart e = true := List.forall_mem_cons.mpr ⟨hd, hacc⟩
      exact ih h hacc' fun e he => hacc' e (List.mem_reverse.mp he)
    rw [escapedWord] at h
    split at h
    · obtain rfl := Except.ok.inj h
      exact hdone
    · split at h
      · cases h
      · next n after hescape =>
        dsimp only at h
        generalize hvalid : (if acc.isEmpty then isNameStart _ else isNamePart _) = valid at h
        cases valid with
        | true =>
          refine hnext (Char.ofNat n) after ?_ h
          split at hvalid
          · exact isNamePart_of_isNameStart hvalid
          · exact hvalid
        | false => cases h
    · cases h
    · split at h
      · next hpart => exact hnext _ _ hpart h
      · obtain rfl := Except.ok.inj h
        exact hdone

/-- A plain word ends before a character that names do not hold. -/
theorem head_dropWhile {cs : List Char} :
    ∀ d ∈ (cs.dropWhile isNamePart).head?, isNamePart d = false := by
  intro d hd
  have := List.head?_dropWhile_not isNamePart cs
  rw [show (cs.dropWhile isNamePart).head? = some d from hd] at this
  simpa using this

/-- The word at a cursor, where a name or an escape starts, stands there. -/
theorem scanWord_at (budget : Nat) {c : Cursor}
    (hstart : ∃ d ∈ c.rest.head?, isNameStart d = true ∨ d = '\\') : (scanWord budget c).At c := by
  have hplain := leads_takeWhile isNamePart c
  have hall : ∀ d ∈ c.rest.takeWhile isNamePart, isNamePart d = true :=
    List.all_eq_true.mp List.all_takeWhile
  rw [scanWord, takeWhile_eq] at *
  dsimp only at *
  split
  · next more hmore =>
    split
    · exact ⟨hplain, trivial, nofun, nofun⟩
    · next chars after hword =>
      have hafter := hplain.trans (leads_escapedWord hword)
      have hhead := head_escapedWord hword
      have hlt : c.pos < after.pos := by
        obtain ⟨between, hrest, hpos⟩ := leads_escapedWord hword
        have hne : between ≠ [] := by
          rintro rfl
          have hslash : after.rest = '\\' :: more := hrest.symm.trans hmore
          exact (hhead '\\' (by rw [hslash]; rfl)).2 rfl
        have := byteSize_pos hne
        dsimp only at hpos
        omega
      have hends : ∀ d ∈ after.rest.head?, isNamePart d = false := fun d hd => (hhead d hd).1
      have hspelled : Word (String.ofList chars) c after := by
        refine ⟨hlt, hstart, hends, ?_, .inr (congrArg List.head? hmore)⟩
        rw [String.toList_ofList]
        exact all_escapedWord hword fun d hd => hall d (List.mem_reverse.mp hd)
      have hword' : (⟨.word (String.ofList chars) none, after, []⟩ : Scan).At c :=
        ⟨hafter, trivial, fun _ _ h => (Token.word.inj h).1 ▸ hspelled, fun _ => parts_of_head hends⟩
      split
      · split
        · exact ⟨hafter, trivial, nofun, nofun⟩
        · exact hword'
      · exact hword'
  · next hslash =>
    have hne : c.rest.takeWhile isNamePart ≠ [] := by
      obtain ⟨d, hd, hd'⟩ := hstart
      cases hrest : c.rest with
      | nil => simp [hrest] at hd
      | cons e rest =>
        obtain rfl : e = d := by simpa [hrest] using hd
        obtain hd' | rfl := hd'
        · simp [isNamePart_of_isNameStart hd']
        · have hpart : isNamePart '\\' = false := by decide
          exact absurd (by rw [hrest, List.dropWhile_cons, hpart]; rfl) (hslash rest)
    have := byteSize_pos hne
    refine ⟨hplain, trivial, ?_, fun _ => parts_of_head head_dropWhile⟩
    rintro name keyword h
    obtain ⟨rfl, -⟩ := Token.word.inj h
    refine ⟨?_, hstart, head_dropWhile, ?_, .inl ?_⟩
    · dsimp only
      omega
    · rwa [String.toList_ofList]
    · rw [String.toList_ofList, List.takeWhile_append_dropWhile]

/-! ## Numbers -/

theorem leads_digits (radix : Nat) (c : Cursor) : c.Leads (digits radix c).2.1 :=
  leads_takeWhile _ c

/-- No name starts where a number ends. -/
theorem parts_of_nameAfterNumber? {cs : List Char} {after : Cursor}
    (h : nameAfterNumber? after = none) : Parts cs after.rest := by
  refine .inl ?_
  rw [nameAfterNumber?] at h
  split at h
  · next hrest =>
    rw [hrest]
    simp only [ite_eq_right_iff, reduceCtorEq, imp_false] at h
    grind
  · next hrest =>
    rw [hrest]
    rfl

theorem endNumber_at {c after : Cursor} (h : c.Leads after) (start : Nat) (raw : String)
    (faults : List Fault) : (endNumber start raw after faults).At c := by
  rw [endNumber]
  split
  next token after' heq =>
  have hafter : c.Leads after' ∧ token.SpelledAt c.rest ∧ token.WordBetween c after' := by
    split at heq
    · next rest hrest =>
      obtain ⟨rfl, rfl⟩ := Prod.mk.inj heq
      exact ⟨h.trans (leads_of_eq_cons hrest), trivial, nofun⟩
    · obtain ⟨rfl, rfl⟩ := Prod.mk.inj heq
      exact ⟨h, trivial, nofun⟩
  split
  · exact ⟨hafter.1, trivial, nofun, nofun⟩
  · next hname =>
    exact ⟨hafter.1, hafter.2.1, hafter.2.2, fun _ => parts_of_nameAfterNumber? hname⟩

theorem scanRadixNumber_at {c d : Cursor} (h : c.Leads d) (radix start : Nat) (raw : String) :
    (scanRadixNumber radix start raw d).At c := by
  have hdigits := h.trans (leads_digits radix d)
  rw [scanRadixNumber]
  dsimp only
  split
  · exact ⟨hdigits, trivial, nofun, nofun⟩
  · exact endNumber_at hdigits ..

theorem leads_exponent {c : Cursor} {r : Cursor × Bool} (h : exponent c = .ok r) : c.Leads r.1 := by
  rw [exponent] at h
  split at h
  · next e rest hrest =>
    split at h
    · next he =>
      have hsize : e.utf8Size = 1 := by
        obtain he | he := Bool.or_eq_true_iff.mp he <;> obtain rfl := eq_of_beq he <;> rfl
      have hlead := leads_of_eq_cons hrest
      rw [hsize] at hlead
      split at h
      · cases h
      · next s more =>
        dsimp only at h
        generalize hd : (if s == '+' || s == '-' then (⟨more, c.pos + 2⟩ : Cursor)
          else ⟨s :: more, c.pos + 1⟩) = d at h
        have hsign : c.Leads d := by
          split at hd
          · next hs =>
            have hs : s.utf8Size = 1 := by
              obtain hs | hs := Bool.or_eq_true_iff.mp hs <;> obtain rfl := eq_of_beq hs <;> rfl
            exact hd ▸ ⟨[e, s], hrest, by simp [hsize, hs]⟩
          · exact hd ▸ hlead
        split at h
        · obtain rfl := Except.ok.inj h
          exact hsign.trans (leads_digits 10 d)
        · cases h
    · obtain rfl := Except.ok.inj h
      exact .refl c
  · obtain rfl := Except.ok.inj h
    exact .refl c

theorem scanFraction_at {c d : Cursor} (h : c.Leads d) (start : Nat) (raw : String)
    (faults : List Fault) : (scanFraction start raw d faults).At c := by
  rw [scanFraction]
  split
  next after separated heq =>
  have hafter : c.Leads after := by
    split at heq
    · next rest hrest =>
      obtain ⟨rfl, -⟩ := Prod.mk.inj heq
      exact h.trans (.trans (leads_of_eq_cons hrest) (leads_digits 10 _))
    · obtain ⟨rfl, -⟩ := Prod.mk.inj heq
      exact h
  split
  · exact ⟨hafter, trivial, nofun, nofun⟩
  · next hexponent => exact endNumber_at (hafter.trans (leads_exponent hexponent)) ..

/-- The number at a cursor stands there. -/
theorem scanNumber_at (c : Cursor) : (scanNumber c).At c := by
  have hdigits := leads_digits 10 c
  rw [scanNumber]
  dsimp only
  split
  · next rest hrest => exact scanRadixNumber_at ⟨['0', 'x'], hrest, rfl⟩ ..
  · next rest hrest => exact scanRadixNumber_at ⟨['0', 'X'], hrest, rfl⟩ ..
  · next rest hrest => exact scanRadixNumber_at ⟨['0', 'o'], hrest, rfl⟩ ..
  · next rest hrest => exact scanRadixNumber_at ⟨['0', 'O'], hrest, rfl⟩ ..
  · next rest hrest => exact scanRadixNumber_at ⟨['0', 'b'], hrest, rfl⟩ ..
  · next rest hrest => exact scanRadixNumber_at ⟨['0', 'B'], hrest, rfl⟩ ..
  · split
    · split
      · exact endNumber_at hdigits ..
      · exact scanFraction_at hdigits ..
    · exact scanFraction_at hdigits ..
  · exact scanFraction_at hdigits ..

/-! ## Strings -/

theorem byteSize_eq_length {cs : List Char} (h : ∀ c ∈ cs, c.utf8Size = 1) :
    byteSize cs = cs.length := by
  induction cs with
  | nil => rfl
  | cons c cs ih =>
    rw [byteSize_cons, h c (List.mem_cons_self ..), ih fun d hd => h d (List.mem_cons_of_mem _ hd),
      List.length_cons, Nat.add_comm]

theorem utf8Size_of_isRadixDigit {radix : Nat} {c : Char} (h : isRadixDigit radix c = true) :
    c.utf8Size = 1 := by
  rw [isRadixDigit] at h
  split at h
  · next v hv => exact utf8Size_of_hexValue? hv
  · cases h

theorem leads_drop_digits (radix : Nat) {c : Cursor} {n size : Nat}
    (hsize : size ≤ ((c.rest.take n).takeWhile (isRadixDigit radix)).length) :
    c.Leads (c.drop size) := by
  have hprefix : (c.rest.take n).takeWhile (isRadixDigit radix) <+: c.rest := by
    have htaken := List.take_prefix n c.rest
    refine .trans ?_ htaken
    exact List.takeWhile_prefix _
  have htake : c.rest.take size = ((c.rest.take n).takeWhile (isRadixDigit radix)).take size := by
    rw [List.prefix_iff_eq_take.mp hprefix, List.take_take, Nat.min_eq_left hsize]
  refine leads_drop ?_
  rw [htake, byteSize_eq_length, List.length_take, Nat.min_eq_left hsize]
  intro d hd
  exact utf8Size_of_isRadixDigit
    (List.all_eq_true.mp List.all_takeWhile d (List.mem_of_mem_take hd))

theorem leads_readEscape (c : Cursor) : c.Leads (readEscape c).after := by
  rw [readEscape]
  split
  · exact .refl c
  · next hrest => exact leads_of_eq_cons hrest
  · next hrest => exact leads_of_eq_cons hrest
  · next hrest => exact leads_of_eq_cons hrest
  · next hrest => exact leads_of_eq_cons hrest
  · next hrest => exact leads_of_eq_cons hrest
  · next hrest => exact leads_of_eq_cons hrest
  · next hrest => exact ⟨['\r', '\n'], hrest, rfl⟩
  · next rest hrest =>
    have hlead : c.Leads ⟨rest, c.pos + 1⟩ := leads_of_eq_cons hrest
    split
    · next hdigits => exact hlead.trans (leads_hexDigits hdigits)
    · exact hlead
  · next rest hrest =>
    have hlead : c.Leads ⟨rest, c.pos + 1⟩ := leads_of_eq_cons hrest
    split
    · next hescape => exact hlead.trans (leads_unicodeEscape hescape)
    · exact hlead
  · next d rest _ _ _ _ _ _ _ _ _ hrest =>
    have hlead := leads_of_eq_cons hrest
    split
    · exact hlead
    · split
      · next hd =>
        have hle : d.toNat ≤ '7'.toNat := of_decide_eq_true (Bool.and_eq_true_iff.mp hd).2
        rw [utf8Size_of_lt (Nat.lt_of_le_of_lt hle (by decide))] at hlead
        refine hlead.trans (leads_drop_digits 8 (n := 2) ?_)
        dsimp only
        split
        · next hlong =>
          have := eq_of_beq (Bool.and_eq_true_iff.mp hlong).1
          omega
        · exact Nat.le_refl _
      · exact hlead

theorem leads_stringBody (budget : Nat) (quote : Char) (acc : List Char) (faults : List Fault)
    (c : Cursor) : c.Leads (stringBody budget quote acc faults c).2.2.1 := by
  induction budget generalizing acc faults c with
  | zero => exact leads_takeWhile _ c
  | succ budget ih =>
    rw [stringBody]
    split
    · exact .refl c
    · next d rest hrest =>
      have hlead := leads_of_eq_cons hrest
      dsimp only
      split
      · exact hlead
      · split
        · exact .refl c
        · split
          · exact (hlead.trans (leads_readEscape _)).trans (ih ..)
          · exact hlead.trans (ih ..)

theorem isWordPart_quote {quote : Char} (h : quote = '"' ∨ quote = '\'') :
    isWordPart quote = false := by
  obtain rfl | rfl := h <;> rfl

/-- A string ends with its quote, or with its line. -/
theorem parts_stringBody (budget : Nat) {quote : Char} (hquote : quote = '"' ∨ quote = '\'')
    (acc : List Char) (faults : List Fault) (c : Cursor) :
    Parts c.rest (stringBody budget quote acc faults c).2.2.1.rest := by
  induction budget generalizing acc faults c with
  | zero =>
    refine .inl ?_
    have hnone := List.head?_dropWhile_not (fun _ => true) c.rest
    rw [stringBody, takeWhile_eq]
    dsimp only
    split at hnone
    · cases hnone
    · next h => rw [h]; rfl
  | succ budget ih =>
    rw [stringBody]
    split
    · next hrest => exact .inl (by rw [hrest]; rfl)
    · next d rest hrest =>
      have hlead := leads_of_eq_cons hrest
      dsimp only
      split
      · next hd => exact .inr ⟨[], d, hrest, eq_of_beq hd ▸ isWordPart_quote hquote⟩
      · split
        · next hd =>
          refine parts_of_head fun e he => ?_
          obtain rfl : d = e := by simpa [hrest] using he
          obtain hd | hd := Bool.or_eq_true_iff.mp hd <;> obtain rfl := eq_of_beq hd <;> rfl
        · split
          · exact (ih ..).of_leads (hlead.trans (leads_readEscape _))
          · exact (ih ..).of_leads hlead

/-- The string at a cursor stands there. -/
theorem scanString_at (budget : Nat) {quote : Char} (hquote : quote = '"' ∨ quote = '\'')
    {c : Cursor} {rest : List Char} (hrest : c.rest = quote :: rest) :
    (scanString budget quote c).At c := by
  have hsize : quote.utf8Size = 1 := by
    obtain rfl | rfl := hquote <;> rfl
  have hdrop : c.Leads (c.drop 1) := leads_drop (by simp [hrest, hsize])
  exact ⟨hdrop.trans (leads_stringBody ..), ⟨quote, rest, hrest, hquote⟩, nofun,
    fun _ => (parts_stringBody budget hquote ..).of_leads hdrop⟩

/-! ## Signs -/

theorem text_of_mem_signsFrom {d : Char} :
    ∀ s ∈ signsFrom d, s.2.text.toList = d :: s.1.toList := by
  unfold signsFrom
  split
  all_goals first | decide | simp

theorem byteSize_text (p : Punct) : byteSize p.text.toList = p.text.toList.length := by
  cases p <;> rfl

/-- A sign ends with a character that no name or word holds. -/
theorem exists_text_eq_append (p : Punct) :
    ∃ first x, p.text.toList = first ++ [x] ∧ isWordPart x = false := by
  have hlast : ∃ x, p.text.toList.getLast? = some x ∧ isWordPart x = false := by
    cases p <;> exact ⟨_, rfl, rfl⟩
  obtain ⟨x, hx, hname⟩ := hlast
  obtain ⟨first, hfirst⟩ := List.getLast?_eq_some_iff.mp hx
  exact ⟨first, x, hfirst, hname⟩

theorem startsWith_iff {mark : String} {cs : List Char} :
    startsWith mark cs = true ↔ ∃ after, cs = mark.toList ++ after := by
  rw [startsWith, List.isPrefixOf_iff_prefix]
  exact ⟨fun ⟨after, h⟩ => ⟨after, h.symm⟩, fun ⟨after, h⟩ => ⟨after, h.symm⟩⟩

/-- A sign is what stands at its start. -/
theorem spelled_of_sign? {inType : Bool} {d : Char} {rest : List Char} {p : Punct} {more : Nat}
    (h : sign? inType d rest = some (p, more)) :
    p.text.toList.length = more + 1 ∧ ∃ after, d :: rest = p.text.toList ++ after := by
  have hfound : ∀ s, ((signsFrom d).find? fun s => startsWith s.1 rest) = some s →
      s.2.text.toList = d :: s.1.toList ∧ ∃ after, rest = s.1.toList ++ after := by
    intro s hs
    have hstarts : startsWith s.1 rest = true :=
      List.find?_some (p := fun s : String × Punct => startsWith s.1 rest) hs
    exact ⟨text_of_mem_signsFrom s (List.mem_of_find?_eq_some hs), startsWith_iff.mp hstarts⟩
  rw [sign?] at h
  split at h
  · next hd =>
    obtain ⟨rfl, rfl⟩ := Prod.mk.inj (Option.some.inj h)
    obtain rfl := eq_of_beq (Bool.and_eq_true_iff.mp hd).2
    exact ⟨rfl, rest, rfl⟩
  · split at h
    · next hd =>
      obtain ⟨rfl, rfl⟩ := Prod.mk.inj (Option.some.inj h)
      obtain rfl := eq_of_beq (Bool.and_eq_true_iff.mp hd).2
      exact ⟨rfl, rest, rfl⟩
    · split at h
      · next signs hsigns =>
        obtain ⟨htext, after, hafter⟩ := hfound _ hsigns
        have hdot : Punct.optionalDot.text.toList = ['?', '.'] := rfl
        obtain ⟨rfl, hmore⟩ := List.cons.inj (hdot.symm.trans htext)
        rw [← hmore] at hafter
        split at h
        · split at h
          · obtain ⟨rfl, rfl⟩ := Prod.mk.inj (Option.some.inj h)
            exact ⟨rfl, rest, rfl⟩
          · obtain ⟨rfl, rfl⟩ := Prod.mk.inj (Option.some.inj h)
            exact ⟨rfl, after, congrArg ('?' :: ·) hafter⟩
        · obtain ⟨rfl, rfl⟩ := Prod.mk.inj (Option.some.inj h)
          exact ⟨rfl, after, congrArg ('?' :: ·) hafter⟩
      · next signs p' _ hsigns =>
        obtain ⟨rfl, rfl⟩ := Prod.mk.inj (Option.some.inj h)
        obtain ⟨htext, after, hafter⟩ := hfound _ hsigns
        refine ⟨?_, after, ?_⟩
        · rw [htext, List.length_cons, String.length_toList]
        · rw [htext, List.cons_append, ← hafter]
      · cases h

/-- **The token at a cursor stands there.** -/
theorem scan_at (budget : Nat) (inType : Bool) (c : Cursor) : (scan budget inType c).At c := by
  rw [scan]
  split
  · next hrest => exact ⟨.refl c, trivial, nofun, fun _ => .inl (by rw [hrest]; rfl)⟩
  · next d rest hrest =>
    extract_lets numeric
    split
    · next hstart =>
      refine scanWord_at budget ⟨d, by rw [hrest]; rfl, ?_⟩
      exact (Bool.or_eq_true_iff.mp hstart).imp_right eq_of_beq
    · split
      · exact scanNumber_at c
      · split
        · next hquote =>
          refine scanString_at budget ?_ hrest
          exact (Bool.or_eq_true_iff.mp hquote).imp eq_of_beq eq_of_beq
        · split
          · next p more hsign =>
            obtain ⟨hlength, after, hafter⟩ := spelled_of_sign? hsign
            rw [← hrest] at hafter
            refine ⟨leads_drop ?_, ⟨after, hafter⟩, nofun, fun _ => ?_⟩
            · rw [hafter, ← hlength, List.take_left, byteSize_text]
            · obtain ⟨first, x, htext, hname⟩ := exists_text_eq_append p
              refine .inr ⟨first, x, ?_, hname⟩
              show c.rest = first ++ x :: c.rest.drop (more + 1)
              rw [hafter, ← hlength, List.drop_left, htext]
              simp
          · exact ⟨leads_of_eq_cons hrest, trivial, nofun, nofun⟩

/-- No token starts with a character that only words hold. -/
theorem isWordPart_of_scan {budget : Nat} {inType : Bool} {c : Cursor}
    (h : (scan budget inType c).token.isInvalid = false) :
    ∀ x ∈ c.rest.head?, isNamePart x = false → isWordPart x = false := by
  intro x hx hname
  refine Bool.eq_false_iff.mpr fun hword => ?_
  have hhigh : 0x80 ≤ x.toNat := by
    refine Nat.le_of_not_lt fun hlow => ?_
    rw [isWordPart, hname, Bool.false_or, isWordChar, if_pos hlow] at hword
    rw [isNamePart, if_pos hlow] at hname
    grind
  have hne : ∀ d : Char, d.toNat < 0x80 → x ≠ d := by
    rintro d hd rfl
    omega
  have hsigns : signsFrom x = [] := by
    unfold signsFrom
    split
    all_goals first | rfl | exact absurd rfl (hne _ (by decide))
  have hdigit : isDigit x = false := by
    rw [isDigit, Bool.and_eq_false_iff]
    refine .inr (decide_eq_false fun hle => ?_)
    have : x.toNat ≤ '9'.toNat := hle
    have : '9'.toNat = 57 := rfl
    omega
  cases hrest : c.rest with
  | nil => simp [hrest] at hx
  | cons d rest =>
    obtain rfl : d = x := by simpa [hrest] using hx
    have hstart : isNameStart d = false :=
      Bool.eq_false_iff.mpr fun hs => by simp [isNamePart_of_isNameStart hs] at hname
    have hsign : sign? inType d rest = none := by
      simp [sign?, hsigns, hne '<' (by decide), hne '>' (by decide)]
    simp [scan, hrest, hstart, hdigit, hsign, hne '\\' (by decide), hne '.' (by decide),
      hne '"' (by decide), hne '\'' (by decide), Token.isInvalid] at h

/-! ## Other readings -/

theorem leads_regexBody {inClass escaped : Bool} {cs : List Char} {pos : Nat}
    {r : List Char × Cursor} (h : regexBody inClass escaped cs pos = some r) :
    Leads ⟨cs, pos⟩ r.2 := by
  induction cs generalizing inClass escaped pos r with
  | nil => cases h
  | cons d rest ih =>
    have hlead : Leads ⟨d :: rest, pos⟩ ⟨rest, pos + d.utf8Size⟩ := leads_of_eq_cons rfl
    rw [regexBody] at h
    split at h
    · cases h
    · split at h
      · obtain ⟨r', hr', rfl⟩ := Option.map_eq_some_iff.mp h
        exact hlead.trans (ih (r := r') hr')
      · split at h
        · obtain rfl := Option.some.inj h
          exact hlead
        · obtain ⟨r', hr', rfl⟩ := Option.map_eq_some_iff.mp h
          exact hlead.trans (ih (r := r') hr')

theorem scanRegex_at (c : Cursor) : (scanRegex c).At c := by
  rw [scanRegex]
  split
  · next rest hrest =>
    split
    · exact ⟨.refl c, trivial, nofun, nofun⟩
    · next body after hbody =>
      have hlead : c.Leads ⟨rest, c.pos + 1⟩ := leads_of_eq_cons hrest
      refine ⟨(hlead.trans (leads_regexBody hbody)).trans (leads_takeWhile _ after), trivial, nofun,
        fun _ => ?_⟩
      dsimp only
      rw [takeWhile_eq]
      exact parts_of_head head_dropWhile
  · exact ⟨.refl c, trivial, nofun, nofun⟩

theorem leads_templatePiece {budget : Nat} {fault : Option Fault} {c : Cursor}
    {piece : TemplatePiece} (h : templatePiece budget fault c = some piece) :
    c.Leads piece.after := by
  induction budget generalizing fault c with
  | zero => cases h
  | succ budget ih =>
    rw [templatePiece] at h
    split at h
    · cases h
    · next rest hrest =>
      obtain rfl := Option.some.inj h
      exact ⟨['$', '\x7b'], hrest, rfl⟩
    · next d rest _ hrest =>
      have hlead := leads_of_eq_cons hrest
      dsimp only at h
      split at h
      · obtain rfl := Option.some.inj h
        exact hlead
      · split at h
        · exact (hlead.trans (leads_readEscape _)).trans (ih h)
        · exact hlead.trans (ih h)

/-- A piece of a template ends with the sign that ends it. -/
theorem parts_templatePiece {budget : Nat} {fault : Option Fault} {c : Cursor}
    {piece : TemplatePiece} (h : templatePiece budget fault c = some piece) :
    Parts c.rest piece.after.rest := by
  induction budget generalizing fault c with
  | zero => cases h
  | succ budget ih =>
    rw [templatePiece] at h
    split at h
    · cases h
    · next rest hrest =>
      obtain rfl := Option.some.inj h
      exact .inr ⟨['$'], '\x7b', hrest, rfl⟩
    · next d rest _ hrest =>
      have hlead := leads_of_eq_cons hrest
      dsimp only at h
      split at h
      · next hd =>
        obtain rfl := Option.some.inj h
        exact .inr ⟨[], d, hrest, by rw [eq_of_beq hd]; rfl⟩
      · split at h
        · exact (ih h).of_leads (hlead.trans (leads_readEscape _))
        · exact (ih h).of_leads hlead

theorem leads_elementText (cs : List Char) (pos : Nat) :
    Leads ⟨cs, pos⟩ (elementText cs pos).2 := by
  induction cs generalizing pos with
  | nil => exact .refl _
  | cons d rest ih =>
    rw [elementText]
    split
    · exact .refl _
    · exact .trans (leads_of_eq_cons rfl) (ih _)

theorem parts_elementText (cs : List Char) (pos : Nat) : Parts cs (elementText cs pos).2.rest := by
  induction cs generalizing pos with
  | nil => exact .inl rfl
  | cons d rest ih =>
    rw [elementText]
    split
    · next hd =>
      refine parts_of_head fun e he => ?_
      obtain rfl : d = e := by simpa using he
      obtain hd | hd := Bool.or_eq_true_iff.mp hd <;> obtain rfl := eq_of_beq hd <;> rfl
    · exact (ih _).cons d

theorem scanElementText_at (c : Cursor) : (scanElementText c).At c := by
  rw [scanElementText]
  split
  · next hrest => exact ⟨.refl c, trivial, nofun, fun _ => .inl (by rw [hrest]; rfl)⟩
  · next rest hrest =>
    exact ⟨⟨['<', '/'], hrest, rfl⟩, ⟨rest, hrest⟩, nofun, fun _ => .inr ⟨['<'], '/', hrest, rfl⟩⟩
  · next rest _ hrest =>
    exact ⟨leads_of_eq_cons hrest, ⟨rest, hrest⟩, nofun, fun _ => .inr ⟨[], '<', hrest, rfl⟩⟩
  · next rest hrest =>
    exact ⟨leads_of_eq_cons hrest, ⟨rest, hrest⟩, nofun, fun _ => .inr ⟨[], '\x7b', hrest, rfl⟩⟩
  · exact ⟨leads_elementText c.rest c.pos, trivial, nofun, fun _ => parts_elementText ..⟩

theorem scanElementString_at {quote : Char} (hquote : quote = '"' ∨ quote = '\'') {c : Cursor}
    {rest : List Char} (hrest : c.rest = quote :: rest) : (scanElementString quote c).At c := by
  have hsize : quote.utf8Size = 1 := by
    obtain rfl | rfl := hquote <;> rfl
  have hdrop : c.Leads (c.drop 1) := leads_drop (by simp [hrest, hsize])
  have hchars := hdrop.trans (leads_takeWhile (· != quote) (c.drop 1))
  have hspelled : ∀ value raw, (Token.string value raw).SpelledAt c.rest := fun _ _ =>
    ⟨quote, rest, hrest, hquote⟩
  rw [scanElementString]
  split
  next chars after heq =>
  rw [heq] at hchars
  split
  · next hend => exact ⟨hchars, hspelled _ _, nofun, fun _ => .inl (by rw [hend]; rfl)⟩
  · next d more hmore =>
    have hd : d = quote := by
      rw [takeWhile_eq] at heq
      obtain ⟨-, rfl⟩ := Prod.mk.inj heq
      have := List.head?_dropWhile_not (· != quote) (c.drop 1).rest
      rw [show ((c.drop 1).rest.dropWhile (· != quote)) = d :: more from hmore] at this
      simpa using this
    subst hd
    refine ⟨hchars.trans ?_, hspelled _ _, nofun, fun _ => ?_⟩
    · have := leads_of_eq_cons hmore
      rwa [hsize] at this
    · exact Parts.of_leads (.inr ⟨[], d, hmore, isWordPart_quote hquote⟩) hchars

theorem elementNameTail_spec (c : Cursor) :
    c.rest = (elementNameTail c).1 ++ (elementNameTail c).2.rest ∧
      (∀ d ∈ (elementNameTail c).1, isNamePart d = true ∨ d = '-') ∧
      ∀ d ∈ (elementNameTail c).2.rest.head?, isNamePart d = false := by
  rw [elementNameTail, takeWhile_eq]
  refine ⟨List.takeWhile_append_dropWhile.symm, fun d hd => ?_, fun d hd => ?_⟩
  · have := List.all_eq_true.mp List.all_takeWhile d hd
    exact (Bool.or_eq_true_iff.mp this).symm.imp_right eq_of_beq
  · have := List.head?_dropWhile_not (fun d => d == '-' || isNamePart d) c.rest
    rw [show (c.rest.dropWhile _).head? = some d from hd] at this
    simp_all

theorem parts_elementNameTail (cs : List Char) (c : Cursor) :
    Parts cs (elementNameTail c).2.rest :=
  parts_of_head (elementNameTail_spec c).2.2

end Lexer

/-! ## Places in a text -/

/-- A token stands in a text, between the places `start` and `after`. -/
structure Token.StandsIn (token : Token) (text : List Char) (start after : Cursor) : Prop where
  leads_start : Cursor.Leads ⟨text, 0⟩ start
  leads : start.Leads after
  spelled : token.SpelledAt start.rest
  word : token.WordBetween start after
  opens : start.Opens text
  closes : token.isInvalid = false → after.Opens text

namespace Token.StandsIn

variable {text : List Char} {token : Token} {start after : Cursor}

theorem leads_after (h : token.StandsIn text start after) : Cursor.Leads ⟨text, 0⟩ after :=
  h.leads_start.trans h.leads

theorem ofAt (hstart : Cursor.Leads ⟨text, 0⟩ start) (hopens : start.Opens text)
    (h : Scan.At start ⟨token, after, []⟩) : token.StandsIn text start after :=
  ⟨hstart, h.leads, h.spelled, h.word, hopens, fun hvalid =>
    Cursor.opens_of_parts hstart (h.parts hvalid)⟩

theorem ofScan {scan : Scan} (hstart : Cursor.Leads ⟨text, 0⟩ start) (hopens : start.Opens text)
    (h : scan.At start) : scan.token.StandsIn text start scan.after :=
  ofAt hstart hopens ⟨h.leads, h.spelled, h.word, h.parts⟩

/-- The token read again, from the same place. -/
theorem rescan {scan : Scan} (h : token.StandsIn text start after) (hscan : scan.At start) :
    scan.token.StandsIn text start scan.after :=
  ofScan h.leads_start h.opens hscan

/-- A sign cut down to its first character. -/
theorem cut {sign : Punct} (h : (Token.punct sign).StandsIn text start after) {first : Punct}
    {more : List Char} (htext : sign.text.toList = first.text.toList ++ more)
    (hfirst : first.text.toList.length = 1) :
    (Token.punct first).StandsIn text start (start.drop 1) := by
  obtain ⟨rest, hrest⟩ := h.spelled
  rw [htext, List.append_assoc] at hrest
  refine ofAt h.leads_start h.opens ⟨Cursor.leads_drop ?_, ⟨_, hrest⟩, nofun, fun _ => ?_⟩
  · rw [hrest, ← hfirst, List.take_left, Lexer.byteSize_text]
  · obtain ⟨lead, x, hx, hname⟩ := Lexer.exists_text_eq_append first
    refine .inr ⟨lead, x, ?_, hname⟩
    show start.rest = lead ++ x :: start.rest.drop 1
    rw [hrest, ← hfirst, List.drop_left, hx]
    simp

/-- A token with what follows it up to another place, read as text. -/
theorem extend (h : token.StandsIn text start after) {next : Cursor} (hnext : after.Leads next)
    (hparts : Cursor.Parts after.rest next.rest) : elementText.StandsIn text start next :=
  ofAt h.leads_start h.opens ⟨h.leads.trans hnext, trivial, nofun, fun _ => hparts.of_leads h.leads⟩

end Token.StandsIn

end ScriptLint.Syntax
