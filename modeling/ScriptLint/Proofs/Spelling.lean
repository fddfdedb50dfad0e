import ScriptLint.Proofs.NamingStatement

/-!
# Names stand where the tree says

The tree of a script tells for each name the place where it is written. A name that is written
without escapes is just the word that stands at its place; the names of elements may hold hyphens,
and those under which something is exported may be strings.

The items of a module follow each other in its text, so that no two of them have names at the same
place.

## Main definitions

* `Ident.WordIn`, `Ident.EscapedIn` — a name is written as a word of a text, or with escapes
* `Ident.LiesIn`, `Stmt.LiesIn` — a name, or all names of a statement, in a stretch of a text
* `Ident.StandsIn` — a name, or a string in its place, is written in a text

## Main results

* `Module.liesIn_of_parse` — the items of a module are written one after the other
* `Module.standsIn_of_parse` — what items declare or export stands in the text
-/

namespace ScriptLint.Syntax

open Text

/-- A name is written at its place as a word of its own. -/
def Ident.WordIn (id : Ident) (text : List Char) : Prop :=
  ∃ before after, text = before ++ (id.name.toList ++ after) ∧ byteSize before = id.pos ∧
    (∀ c ∈ before.getLast?, isWordPart c = false) ∧ ∀ c ∈ after.head?, isWordPart c = false

/-- A word with escapes is written at the place of a name. -/
def Ident.EscapedIn (id : Ident) (text : List Char) : Prop :=
  ∃ before rest, text = before ++ rest ∧ byteSize before = id.pos ∧
    (rest.dropWhile isNamePart).head? = some '\\'

/-- A name is written in a stretch of a text. Only the names of elements may hold hyphens. -/
structure Ident.LiesIn {text : List Char} (id : Ident) (r : Stretch text) : Prop where
  first_le : r.first ≤ id.pos
  lt_last : id.pos < r.last
  solid : ∀ c ∈ id.name.toList, isNamePart c = true ∨ c = '-'
  spelled : id.WordIn text ∨ id.EscapedIn text

/-- A word is written at the start of a text: character by character, or with escapes. -/
def Spells (rest : List Char) (name : String) : Prop :=
  rest.takeWhile isNamePart = name.toList ∨ (rest.dropWhile isNamePart).head? = some '\\'

/-- A name is written at its place: as a word, maybe with escapes, or as a string. -/
def Ident.StandsIn (id : Ident) (text : List Char) : Prop :=
  ∃ before rest, text = before ++ rest ∧ byteSize before = id.pos ∧
    (Spells rest id.name ∨ ∃ quote after, rest = quote :: after ∧ (quote = '"' ∨ quote = '\''))

/-- The names that a declaration binds. -/
def Stmt.declared : Stmt → List Ident
  | .variables _ _ _ pats => Outline.boundList pats
  | .function _ _ id _ | .classDecl _ _ id _ | .type _ id _ => [id]
  | _ => []

/-- The names that an item declares or exports. -/
def Stmt.names : Stmt → List Ident
  | .exported _ decl => decl.names
  | .exportList _ specifiers _ _ => specifiers.map (·.exported)
  | s => s.declared

namespace Grammar

variable {text : List Char} {r : Stretch text}

/-! ## Words -/

theorem State.exists_append (s : State text) :
    ∃ before, text = before ++ s.start.rest ∧ byteSize before = s.start.pos := by
  obtain ⟨before, hrest, hpos⟩ := s.stands.leads_start
  exact ⟨before, hrest, by simpa using hpos.symm⟩

theorem State.pos_of_word {s : State text} {name : String} {keyword : Option Keyword}
    (h : s.token = .word name keyword) : s.pos = s.start.pos := by
  rw [State.pos, h]

theorem State.start_advance {s : State text} (h : s.token.isInvalid = false) :
    s.advance.start = (s.after.skipTrivia false).after := by
  rw [State.advance, dif_pos h]
  rfl

theorem State.token_advance {s : State text} (h : s.token.isInvalid = false) :
    s.advance.token =
      (Lexer.scan s.budget s.context.splitsAngles (s.after.skipTrivia false).after).token := by
  rw [State.advance, dif_pos h]
  rfl

/-- If a token follows, then no character that only words hold comes right after a token. -/
theorem State.isWordPart_of_advance {s : State text} (h : s.token.isInvalid = false)
    (hnext : s.advance.token.isInvalid = false) :
    ∀ c ∈ s.after.rest.head?, isNamePart c = false → isWordPart c = false := by
  intro c hc hname
  rw [State.token_advance h] at hnext
  rcases s.after.skipTrivia_eq_or false with hstays | hspace
  · rw [hstays] at hnext
    exact Lexer.isWordPart_of_scan hnext c hc hname
  · exact hspace c hc

/-- No name or word goes on where a word starts. -/
theorem State.getLast?_of_word {s : State text} {name : String} {keyword : Option Keyword}
    (h : s.token = .word name keyword) {before : List Char} (htext : text = before ++ s.start.rest)
    (hplain : s.start.rest.head? ≠ some '\\') :
    ∀ c ∈ before.getLast?, isWordPart c = false := by
  refine fun last hlast => Bool.eq_false_iff.mpr fun hpart => ?_
  have hopens := s.stands.opens before htext (by rw [hlast, Option.any_some, hpart])
  obtain ⟨c, hc, hstart | rfl⟩ := (s.stands.word _ _ h).starts
  · rw [show s.start.rest.head? = some c from hc, Option.any_some, hstart] at hopens
    cases hopens
  · exact hplain hc

/-- A word is written where it starts, and so is one that goes on with a tail of another kind. -/
theorem State.liesIn_of_word {s t : State text} {name : String} {keyword : Option Keyword}
    (h : s.token = .word name keyword) {tail rest : List Char} (htail : s.after.rest = tail ++ rest)
    (hsolid : ∀ c ∈ tail, isNamePart c = true ∨ c = '-')
    (hrest : ∀ c ∈ rest.head?, isWordPart c = false) (hfirst : r.first ≤ s.start.pos)
    (hafter : s.after.pos ≤ t.start.pos) (hlast : t.start.pos ≤ r.last) :
    Ident.LiesIn ⟨name ++ String.ofList tail, s.start.pos⟩ r := by
  have hword := s.stands.word _ _ h
  have hlt := hword.lt
  refine ⟨hfirst, ?_, ?_, ?_⟩
  · show s.start.pos < r.last
    omega
  · intro c hc
    rw [String.toList_append, String.toList_ofList, List.mem_append] at hc
    exact hc.elim (fun hc => .inl (hword.solid c hc)) (hsolid c)
  · obtain ⟨before, htext, hpos⟩ := s.exists_append
    by_cases hplain : (s.start.rest.dropWhile isNamePart).head? = some '\\'
    · exact .inr ⟨before, s.start.rest, htext, hpos, hplain⟩
    have hstart := hword.spelled.resolve_right hplain
    refine .inl ⟨before, rest, ?_, hpos, s.getLast?_of_word h htext ?_, hrest⟩
    · rw [String.toList_append, String.toList_ofList, List.append_assoc, ← htail, ← hstart]
      exact htext
    · intro hslash
      cases hchars : s.start.rest with
      | nil => simp [hchars] at hslash
      | cons c more =>
        obtain rfl : c = '\\' := by simpa [hchars] using hslash
        exact hplain (by rw [hchars, List.dropWhile_cons_of_neg (by decide)]; rfl)

theorem State.standsIn_of_word {s : State text} {name : String} {keyword : Option Keyword}
    (h : s.token = .word name keyword) : Ident.StandsIn ⟨name, s.start.pos⟩ text := by
  obtain ⟨before, htext, hpos⟩ := s.exists_append
  have hword := s.stands.word _ _ h
  refine ⟨before, s.start.rest, htext, hpos, .inl (hword.spelled.imp_left fun hstart => ?_)⟩
  rw [hstart, List.takeWhile_append_of_pos hword.solid]
  cases hrest : s.after.rest with
  | nil => simp
  | cons c rest => simp [hword.ends c (by rw [hrest]; rfl)]

theorem State.standsIn_of_string {s : State text} {value raw : String}
    (h : s.token = .string value raw) : Ident.StandsIn ⟨value, s.pos⟩ text := by
  obtain ⟨before, htext, hpos⟩ := s.exists_append
  have hspelled := s.stands.spelled
  have hstart : s.pos = s.start.pos := by rw [State.pos, h]
  rw [h] at hspelled
  rw [hstart]
  exact ⟨before, s.start.rest, htext, hpos, .inr hspelled⟩

theorem yields_word :
    Yields r (word : P text Ident) fun id => id.LiesIn r ∧ id.StandsIn text := by
  refine .token fun s hfirst id t hst hrun hlast => ?_
  generalize htoken : s.token = token at hrun
  cases token
  case word name keyword =>
    cases hrun
    rw [s.pos_of_word htoken]
    have hvalid : s.token.isInvalid = false := by rw [htoken]; rfl
    have hafter : s.after.pos ≤ s.advance.start.pos := by
      rw [State.start_advance hvalid]
      exact (Cursor.leads_skipTrivia _ _).le
    have hends : ∀ c ∈ s.after.rest.head?, isWordPart c = false := fun c hc =>
      State.isWordPart_of_advance hvalid hlast.2 c hc ((s.stands.word _ _ htoken).ends c hc)
    refine ⟨?_, s.standsIn_of_word htoken⟩
    simpa using s.liesIn_of_word htoken (List.nil_append _).symm nofun hends hfirst hafter hlast.1
  all_goals
    exact Yields.fail (r := r) (Q := fun id => id.LiesIn r ∧ id.StandsIn text) _ s id t hst hrun
      hfirst hlast

theorem yields_hyphenated : Yields r (hyphenated : P text Ident) (·.LiesIn r) := by
  refine .token fun s hfirst id t hst hrun hlast => ?_
  generalize htoken : s.token = token at hrun
  cases token
  case word name keyword =>
    cases hrun
    have hvalid : ¬ s.token.isInvalid = true := by rw [htoken]; exact Bool.false_ne_true
    dsimp only at hlast ⊢
    rw [if_neg hvalid] at hlast ⊢
    rw [s.pos_of_word htoken]
    obtain ⟨htail, hsolid, hends⟩ := Lexer.elementNameTail_spec s.after
    have hends' := fun c hc => State.isWordPart_of_advance rfl hlast.2 c hc (hends c hc)
    refine s.liesIn_of_word htoken htail hsolid hends' hfirst ?_ hlast.1
    rw [State.start_advance rfl]
    exact ((Cursor.leads_takeWhile _ _).trans (Cursor.leads_skipTrivia _ _)).le
  all_goals
    exact Yields.unexpected (r := r) (Q := (·.LiesIn r)) _ s id t hst hrun hfirst hlast

instance : Lexical r (·.LiesIn r) (·.StandsIn text) where
  word := yields_word
  hyphenated := yields_hyphenated
  string _ _ _ h := State.standsIn_of_string h

/-! ## Modules -/

/-- One item of a module, or none at the end of the text. -/
theorem keeps_item (depth : Nat) : Keeps r (·.LiesIn r) (·.StandsIn text)
    (do if (← token) == .eof then return none
        return some (← (rules depth : Go text).item)) := by
  have := faithful_rules (r := r) (N := (·.LiesIn r)) (X := (·.StandsIn text)) depth
  exact Composed.keeps (.skip fun _ => .ite (.pure Named.names_none)
    (.bind .known fun _ h => .pure (Named.names_some.mpr h)))

/-- No item follows at the end of the text only. -/
theorem isInvalid_of_noItem {depth : Nat} {s t : State text} {h : s.Leads t}
    (hrun : (do
      if (← token) == Token.eof then return none
      return some (← (rules depth : Go text).item) : P text (Option Stmt)) s = .ok none t h) :
    s.token.isInvalid = false := by
  obtain ⟨_, _, _, _, ⟨⟩, hitem⟩ := exists_of_bind hrun
  split at hitem
  · next heof => rw [eq_of_beq heof]; rfl
  · obtain ⟨_, _, _, _, -, hsome⟩ := exists_of_bind hitem
    cases hsome

end Grammar

open Grammar

/-- All names of a statement are written in a stretch of a text. -/
def Stmt.LiesIn {text : List Char} (s : Stmt) (r : Stretch text) : Prop :=
  s.Names (·.LiesIn r) (·.StandsIn text)

/-- Two statements are written one after the other. -/
def Stmt.Precedes (text : List Char) (a b : Stmt) : Prop :=
  ∃ r r' : Stretch text, r.last ≤ r'.first ∧ a.LiesIn r ∧ b.LiesIn r'

/-- **The items of a module are written one after the other.** -/
theorem Module.liesIn_of_parse {options : Options} {text : List Char} {m : Module}
    (h : Module.parse options text = .ok m) :
    (∀ item ∈ m.items, ∃ r : Stretch text, item.LiesIn r) ∧
      m.items.Pairwise (Stmt.Precedes text) := by
  have hrun : ∀ depth s items t, Run (do
      if (← token) == .eof then return none
      return some (← (rules depth : Go text).item)) s items t → s.token.isInvalid = false ∧
      (∀ item ∈ items, ∃ r : Stretch text, s.start.pos ≤ r.first ∧ item.LiesIn r) ∧
        items.Pairwise (Stmt.Precedes text) := by
    intro depth s items t hrun
    induction hrun with
    | done hstep => exact ⟨isInvalid_of_noItem hstep, nofun, .nil⟩
    | @more s t u item items hst hstep hmore ih =>
      obtain ⟨hvalid, hlater, hpairs⟩ := ih
      have hitem := (keeps_item (r := ⟨s.start.pos, t.start.pos⟩) depth).yields s _ t hst hstep
        (Nat.le_refl _) ⟨Nat.le_refl _, hvalid⟩ item rfl
      refine ⟨hst.2 hvalid,
        List.forall_mem_cons.mpr ⟨⟨_, Nat.le_refl _, hitem⟩, fun later hmem => ?_⟩,
        List.pairwise_cons.mpr ⟨fun later hmem => ?_, hpairs⟩⟩
      · obtain ⟨r, hfirst, hr⟩ := hlater later hmem
        exact ⟨r, Nat.le_trans hst.le hfirst, hr⟩
      · obtain ⟨r, hfirst, hr⟩ := hlater later hmem
        exact ⟨⟨s.start.pos, t.start.pos⟩, r, hfirst, hitem, hr⟩
  rw [Module.parse] at h
  dsimp only at h
  split at h
  · next items s hst hitems =>
    split at h
    · cases h
    · cases h
      obtain ⟨-, hall, hpairs⟩ := hrun _ _ _ _ (run_of_collect hitems)
      exact ⟨fun item hitem => (hall item hitem).imp fun r hr => hr.2, hpairs⟩
  · cases h

/-- What an item declares or exports is among its names. -/
theorem Stmt.names_names {N X : Ident → Prop} {s : Stmt} (h : s.Names N X) :
    ∀ id ∈ s.names, X id := by
  have hdeclared : ∀ s : Stmt, s.Names N X → ∀ id ∈ s.declared, X id := by
    intro s h
    cases s with
    | «variables» _ _ _ pats =>
      exact fun id hid => (Pat.names_boundList pats (Pat.listNames_iff.mp h) id hid).2
    | function _ _ _ _ | classDecl _ _ _ _ | type _ _ _ => exact List.forall_mem_singleton.mpr h.1.2
    | _ => exact nofun
  fun_induction Stmt.names s with
  | case1 _ decl ih => exact ih h
  | case2 _ specifiers _ _ =>
    exact List.forall_mem_map.mpr fun e he => (h.1 e he).2
  | case3 s _ _ => exact hdeclared s h

/-- The names that the items of a script declare or export stand in its text at their places. -/
theorem Module.standsIn_of_parse {options : Options} {text : List Char} {m : Module}
    (h : Module.parse options text = .ok m) {item : Stmt} (hitem : item ∈ m.items) {id : Ident}
    (hid : id ∈ item.names) : id.StandsIn text := by
  obtain ⟨r, hr⟩ := (Module.liesIn_of_parse h).1 item hitem
  exact Stmt.names_names hr id hid

end ScriptLint.Syntax
