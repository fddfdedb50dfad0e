import ScriptLint.Toml.Reader

/-!
# Keys of a TOML document

In a document that can be read no table has two entries of one key, at any depth. Every table comes
about in the builder, and there an entry is added only under a key that its table does not have, or
takes the place of the entry that the key had.

The other values need no invariant but one: a date or a time is told from other texts by a hyphen or
a colon in it.

## Main definitions

* `Toml.Ensures` — all that a computation can give has a property
* `Toml.Value.WellFormed` — keys are distinct at every depth
* `Toml.Table.WellFormed`, `Toml.Builder.WellFormed` — the same of a document that is being built

## Main results

* `Toml.Table.WellFormed.change` — changes deep inside
* `Toml.Builder.WellFormed.openTable`, `Toml.Builder.WellFormed.openElement` — steps of the builder
* `Toml.reads_value` — values
* `Toml.ensures_parse` — documents
-/

namespace ScriptLint.Toml

/-! ## What computations give -/

/-- All that a computation can give has a property. -/
def Ensures {ε α : Type} (Q : α → Prop) (x : Except ε α) : Prop :=
  ∀ a, x = .ok a → Q a

namespace Ensures

variable {ε ε' α β : Type} {Q : α → Prop} {R : β → Prop} {x : Except ε α}

theorem ok {a : α} (h : Q a) : Ensures Q (.ok a : Except ε α) := by
  intro b hb
  obtain rfl := Except.ok.inj hb
  exact h

theorem error (e : ε) : Ensures Q (.error e : Except ε α) :=
  nofun

theorem bind {f : α → Except ε β} (hx : Ensures Q x) (hf : ∀ a, Q a → Ensures R (f a)) :
    Ensures R (x.bind f) := by
  cases x with
  | error e => exact error e
  | ok a => exact hf a (hx a rfl)

/-- The first of two computations may give anything. -/
theorem skip {f : α → Except ε β} (hf : ∀ a, Ensures R (f a)) : Ensures R (x.bind f) :=
  bind (Q := fun _ => True) (fun _ _ => trivial) fun a _ => hf a

theorem map {f : α → β} (hx : Ensures (fun a => R (f a)) x) : Ensures R (x.map f) := by
  cases x with
  | error e => exact error e
  | ok a => exact ok (hx a rfl)

theorem mapError {f : ε → ε'} (hx : Ensures Q x) : Ensures Q (x.mapError f) := by
  cases x with
  | error e => exact error _
  | ok a => exact ok (hx a rfl)

theorem ite {condition : Prop} [Decidable condition] {y : Except ε α} (hx : Ensures Q x)
    (hy : Ensures Q y) : Ensures Q (if condition then x else y) := by
  split
  · exact hx
  · exact hy

theorem foldlM {f : α → β → Except ε α} {l : List β}
    (hf : ∀ b ∈ l, ∀ a, Q a → Ensures Q (f a b)) {a : α} (ha : Q a) : Ensures Q (l.foldlM f a) := by
  induction l generalizing a with
  | nil => exact ok ha
  | cons b l ih =>
    obtain ⟨hb, hl⟩ := List.forall_mem_cons.mp hf
    rw [List.foldlM_cons]
    exact bind (hb a ha) fun _ => ih hl

end Ensures

/-- All values that can be read have a property. -/
def Reads {α : Type} (Q : α → Prop) (r : Reading α) : Prop :=
  Ensures (fun x => Q x.1) r

namespace Reads

variable {α β : Type} {Q : α → Prop} {R : β → Prop} {r : Reading α}

theorem ok {a : α} (h : Q a) (rest : List Char) : Reads Q (.ok (a, rest)) :=
  Ensures.ok h

theorem error (f : Failure) : Reads Q (.error f) :=
  Ensures.error f

theorem bind {f : α × List Char → Reading β} (hr : Reads Q r)
    (hf : ∀ a rest, Q a → Reads R (f (a, rest))) : Reads R (r.bind f) :=
  Ensures.bind hr fun x => hf x.1 x.2

/-- The first of two readings may give anything. -/
theorem skip {f : α × List Char → Reading β} (hf : ∀ a rest, Reads R (f (a, rest))) :
    Reads R (r.bind f) :=
  Ensures.skip fun x => hf x.1 x.2

theorem map {f : α × List Char → β × List Char} (hr : Reads Q r)
    (hf : ∀ a rest, Q a → R (f (a, rest)).1) : Reads R (r.map f) :=
  Ensures.map fun x hx => hf x.1 x.2 (hr x hx)

/-- What is read may be anything before it is changed. -/
theorem skipMap {f : α × List Char → β × List Char} (hf : ∀ a rest, R (f (a, rest)).1) :
    Reads R (r.map f) :=
  Ensures.map fun x _ => hf x.1 x.2

theorem committed (hr : Reads Q r) : Reads Q (committed r) :=
  Ensures.mapError hr

theorem inside (construct : String) (hr : Reads Q r) : Reads Q (inside construct r) :=
  Ensures.mapError hr

theorem expecting (expected : List String) (hr : Reads Q r) : Reads Q (expecting expected r) :=
  Ensures.mapError hr

theorem ite {condition : Prop} [Decidable condition] {r' : Reading α} (hr : Reads Q r)
    (hr' : Reads Q r') : Reads Q (if condition then r else r') :=
  Ensures.ite hr hr'

end Reads

/-! ## Well-formed values and tables -/

/-- The keys of tables are distinct at every depth, and dates and times have a mark in them. -/
inductive Value.WellFormed : Value → Prop
  | text (s : String) : WellFormed (.text s)
  | integer (i : Int) : WellFormed (.integer i)
  | real (x : Number.Binary64) : WellFormed (.real x)
  | bool (b : Bool) : WellFormed (.bool b)
  | moment {written : String} (h : '-' ∈ written.toList ∨ ':' ∈ written.toList) :
      WellFormed (.moment written)
  | list {items : List Value} (h : ∀ v ∈ items, v.WellFormed) : WellFormed (.list items)
  | table {entries : List (String × Value)} (hkeys : (entries.map Prod.fst).Nodup)
      (h : ∀ e ∈ entries, e.2.WellFormed) : WellFormed (.table entries)

mutual

/-- The keys of tables are distinct at every depth. -/
inductive Item.WellFormed : Item → Prop
  | value {v : Value} (h : v.WellFormed) : Item.WellFormed (.value v)
  | table {t : Table} (h : Table.WellFormed t) : Item.WellFormed (.table t)
  | tables {ts : List Table} (h : ∀ t ∈ ts, Table.WellFormed t) : Item.WellFormed (.tables ts)

/-- The keys of a table and of the tables inside are distinct. -/
inductive Table.WellFormed : Table → Prop
  | mk {implied dotted : Bool} {entries : List (String × Item)}
      (hkeys : (entries.map Prod.fst).Nodup) (h : ∀ e ∈ entries, Item.WellFormed e.2) :
      Table.WellFormed (.mk implied dotted entries)

end

/-- What a key stands for is an entry. -/
theorem mem_of_lookup {α : Type} {key : String} {a : α} {entries : List (String × α)}
    (h : entries.lookup key = some a) : (key, a) ∈ entries := by
  obtain ⟨before, after, rfl, -⟩ := List.lookup_eq_some_iff.mp h
  exact List.mem_append_right _ (List.mem_cons_self ..)

namespace Table

variable {t : Table} {name : String} {item : Item}

theorem wellFormed_iff : t.WellFormed ↔
    (t.entries.map Prod.fst).Nodup ∧ ∀ e ∈ t.entries, e.2.WellFormed := by
  obtain ⟨implied, dotted, entries⟩ := t
  constructor
  · rintro ⟨hkeys, h⟩
    exact ⟨hkeys, h⟩
  · rintro ⟨hkeys, h⟩
    exact .mk hkeys h

theorem wellFormed_empty : empty.WellFormed :=
  .mk .nil nofun

theorem wellFormed_implicit (dotted : Bool) : (implicit dotted).WellFormed :=
  .mk .nil nofun

theorem mem_put {entries : List (String × Item)} {e : String × Item}
    (h : e ∈ put name item entries) : e = (name, item) ∨ e ∈ entries := by
  induction entries with
  | nil => exact .inl (List.mem_singleton.mp h)
  | cons e' more ih =>
    rw [put] at h
    split at h
    · exact (List.mem_cons.mp h).imp_right (List.mem_cons_of_mem _)
    · obtain rfl | hmore := List.mem_cons.mp h
      · exact .inr (List.mem_cons_self ..)
      · exact (ih hmore).imp_right (List.mem_cons_of_mem _)

/-- A key that is set twice has one entry. -/
theorem nodup_put {entries : List (String × Item)} (h : (entries.map Prod.fst).Nodup) :
    ((put name item entries).map Prod.fst).Nodup := by
  induction entries with
  | nil => simp [put]
  | cons e more ih =>
    rw [List.map_cons, List.nodup_cons] at h
    rw [put]
    split
    · next hname =>
      rw [List.map_cons, List.nodup_cons, ← hname]
      exact h
    · next hname =>
      rw [List.map_cons, List.nodup_cons]
      refine ⟨fun hmem => ?_, ih h.2⟩
      obtain ⟨e', he', heq⟩ := List.mem_map.mp hmem
      obtain rfl | hmore := mem_put he'
      · exact hname heq.symm
      · exact h.1 (List.mem_map.mpr ⟨e', hmore, heq⟩)

namespace WellFormed

theorem insert (h : t.WellFormed) (hitem : item.WellFormed) : (t.insert name item).WellFormed := by
  obtain ⟨hkeys, h⟩ := wellFormed_iff.mp h
  refine .mk (nodup_put hkeys) fun e he => ?_
  obtain rfl | he := mem_put he
  · exact hitem
  · exact h e he

theorem erase (h : t.WellFormed) : (t.erase name).WellFormed := by
  obtain ⟨hkeys, h⟩ := wellFormed_iff.mp h
  exact .mk (hkeys.sublist (List.filter_sublist.map _)) fun e he => h e (List.mem_filter.mp he).1

theorem get? (h : t.WellFormed) (hitem : t.get? name = some item) : item.WellFormed := by
  obtain ⟨-, h⟩ := wellFormed_iff.mp h
  exact h (name, item) (mem_of_lookup hitem)

/-- What a key stands for that may be missing. -/
theorem getD (h : t.WellFormed) (hitem : item.WellFormed) (name : String) :
    ((t.get? name).getD item).WellFormed := by
  cases hget : t.get? name with
  | none => exact hitem
  | some found => exact h.get? hget

/-- **Changes deep inside** keep the keys of the tables on the way distinct. -/
theorem change {dotted : Bool} {f : Table → Except Cause Table}
    (hf : ∀ t, t.WellFormed → Ensures WellFormed (f t)) (above : List String) (path : List Key)
    (ht : t.WellFormed) : Ensures WellFormed (t.change dotted f above path) := by
  induction path generalizing above t with
  | nil => exact hf t ht
  | cons key path ih =>
    have hitem := ht.getD (.table (wellFormed_implicit dotted)) key.name
    rw [Table.change]
    cases hget : (t.get? key.name).getD (.table (.implicit dotted)) with
    | value v => exact .error _
    | tables ts =>
      rw [hget] at hitem
      cases hitem with | tables hts =>
      cases hlast : ts.getLast? with
      | none =>
        simp only [hlast]
        exact .error _
      | some last =>
        simp only [hlast]
        refine (ih _ (hts last (List.mem_of_getLast? hlast))).bind fun changed hchanged => ?_
        refine .ok (ht.insert (.tables fun t' ht' => ?_))
        obtain hinit | hlast := List.mem_append.mp ht'
        · exact hts t' (List.dropLast_subset _ hinit)
        · obtain rfl := List.mem_singleton.mp hlast
          exact hchanged
    | table inner =>
      rw [hget] at hitem
      cases hitem with | table hinner =>
      exact .ite (.error _) ((ih _ hinner).bind fun changed hchanged =>
        .ok (ht.insert (.table hchanged)))

/-- An entry is added only under a key that is free. -/
theorem addEntry (ht : t.WellFormed) (path : List Key) (key : Key) {v : Value}
    (hv : v.WellFormed) (owner : Option (List String)) :
    Ensures WellFormed (t.addEntry path key v owner) := by
  refine change (fun inner hinner => .ite (.error _) ?_) [] path ht
  cases inner.get? key.name with
  | some item => exact .error _
  | none => exact .ok (hinner.insert (.value hv))

theorem addInline (ht : t.WellFormed) {pair : List Key × Key × Value}
    (hv : pair.2.2.WellFormed) : Ensures WellFormed (Toml.addInline t pair) := by
  rw [Toml.addInline]
  cases valueTable? t pair.1 with
  | some name => exact .error _
  | none => exact ht.addEntry pair.1 pair.2.1 hv none

end WellFormed

end Table

/-! ## From tables to values -/

theorem tablesToValues_eq_map (ts : List Table) :
    tablesToValues ts = ts.map fun t => .table t.toEntries := by
  induction ts with
  | nil => rfl
  | cons t ts ih => rw [tablesToValues, ih, List.map_cons]

theorem itemsToEntries_eq_map (entries : List (String × Item)) :
    itemsToEntries entries = entries.map fun e => (e.1, e.2.toValue) := by
  induction entries with
  | nil => rfl
  | cons e entries ih => rw [itemsToEntries, ih, List.map_cons]

mutual

theorem Item.WellFormed.toValue : ∀ {item : Item}, item.WellFormed → item.toValue.WellFormed
  | _, .value h => by rwa [Item.toValue]
  | _, .table h => by
    rw [Item.toValue]
    exact h.toEntries
  | _, .tables h => by
    rw [Item.toValue, tablesToValues_eq_map]
    refine .list fun v hv => ?_
    obtain ⟨t, ht, rfl⟩ := List.mem_map.mp hv
    exact (h t ht).toEntries

/-- **A table keeps its keys** when it becomes a value. -/
theorem Table.WellFormed.toEntries :
    ∀ {t : Table}, t.WellFormed → (Value.table t.toEntries).WellFormed
  | _, .mk hkeys h => by
    rw [Table.toEntries, itemsToEntries_eq_map]
    refine .table (by simpa [Function.comp_def] using hkeys) fun e he => ?_
    obtain ⟨entry, hentry, rfl⟩ := List.mem_map.mp he
    exact (h entry hentry).toValue

end

theorem ensures_inlineTable {pairs : List (List Key × Key × Value)}
    (h : ∀ pair ∈ pairs, pair.2.2.WellFormed) :
    Ensures Value.WellFormed (inlineTable pairs) := by
  refine .map fun t ht => Table.WellFormed.toEntries ?_
  exact Ensures.foldlM (fun pair hpair t ht => ht.addInline (h pair hpair)) Table.wellFormed_empty
    t ht

/-! ## Steps of the builder -/

namespace Builder

/-- The keys of all tables of a document that is being built are distinct. -/
structure WellFormed (b : Builder) : Prop where
  root : b.root.WellFormed
  current : b.current.WellFormed

theorem wellFormed_empty : empty.WellFormed :=
  ⟨Table.wellFormed_empty, Table.wellFormed_empty⟩

theorem ensures_takeOut (path : List Key) (name : String) {t : Table} (ht : t.WellFormed) :
    Ensures (fun x => x.1.WellFormed ∧ x.2.WellFormed) (takeOut path name t) := by
  rw [takeOut]
  cases hget : t.get? name with
  | none => exact .ok ⟨Table.wellFormed_empty, ht⟩
  | some item =>
    have hitem := ht.get? hget
    cases hitem with
    | value => exact .error _
    | tables => exact .error _
    | table hold =>
      obtain ⟨hkeys, hentries⟩ := Table.wellFormed_iff.mp hold
      exact .ite (.ok ⟨.mk hkeys hentries, ht.erase⟩) (.error _)

theorem wellFormed_find? {path : List Key} {t found : Table} (ht : t.WellFormed)
    (h : find? path t = some found) : found.WellFormed := by
  induction path generalizing t with
  | nil =>
    obtain rfl := Option.some.inj h
    exact ht
  | cons key rest ih =>
    rw [find?] at h
    cases hget : t.get? key.name with
    | none =>
      rw [hget] at h
      cases h
    | some item =>
      rw [hget] at h
      have hitem := ht.get? hget
      cases hitem with
      | value => cases h
      | table hinner => exact ih hinner h
      | tables hts =>
        obtain ⟨last, hlast, h⟩ := Option.bind_eq_some_iff.mp h
        exact ih (hts last (List.mem_of_getLast? hlast)) h

namespace WellFormed

variable {b : Builder}

theorem addEntry (hb : b.WellFormed) (path : List Key) (key : Key) {v : Value}
    (hv : v.WellFormed) : Ensures WellFormed (b.addEntry path key v) :=
  (hb.current.addEntry path key hv _).bind fun _ hcurrent => .ok ⟨hb.root, hcurrent⟩

theorem complete (hb : b.WellFormed) : Ensures Table.WellFormed b.complete := by
  rw [Builder.complete]
  cases b.path.getLast? with
  | none => exact .ok hb.current
  | some key =>
    refine Table.WellFormed.change (fun t ht => ?_) [] _ hb.root
    cases b.isElement with
    | true =>
      have hitem := ht.getD (.tables nofun : (Item.tables []).WellFormed) key.name
      simp only [if_true, appendElement]
      cases hget : (t.get? key.name).getD (.tables []) with
      | value => exact .error _
      | table => exact .error _
      | tables ts =>
        rw [hget] at hitem
        cases hitem with | tables hts =>
        refine .ok (ht.insert (.tables ?_))
        simpa [or_imp, forall_and] using ⟨hts, hb.current⟩
    | false =>
      simp only [Bool.false_eq_true, if_false, placeTable]
      cases t.get? key.name with
      | none => exact .ok (ht.insert (.table hb.current))
      | some item =>
        cases item with
        | value => exact .error _
        | tables => exact .error _
        | table old => exact .ite (.ok (ht.insert (.table hb.current))) (.error _)

/-- **The header of a table** starts a table whose keys are distinct. -/
theorem openTable (hb : b.WellFormed) (path : List Key) :
    Ensures WellFormed (b.openTable path) := by
  refine hb.complete.bind fun root hroot => ?_
  refine (hroot.change (fun t ht => .ok ht) [] _).bind fun root hroot => ?_
  have hplace : ((find? path.dropLast root).getD .empty).WellFormed := by
    cases hfind : find? path.dropLast root with
    | none => exact Table.wellFormed_empty
    | some found => exact wellFormed_find? hroot hfind
  refine (ensures_takeOut path _ hplace).bind fun taken htaken => ?_
  refine (hroot.change (fun t ht => ?_) [] _).bind fun root hroot => .ok ⟨hroot, htaken.1⟩
  exact .map fun x hx => (ensures_takeOut path _ ht x hx).2

/-- **The header of an element** starts a table whose keys are distinct. -/
theorem openElement (hb : b.WellFormed) (path : List Key) :
    Ensures WellFormed (b.openElement path) := by
  refine hb.complete.bind fun root hroot => ?_
  refine (hroot.change (fun t ht => ?_) [] _).bind fun root hroot =>
    .ok ⟨hroot, Table.wellFormed_empty⟩
  have hitem := ht.getD (.tables nofun : (Item.tables []).WellFormed)
    ((path.getLast?.map (·.name)).getD "")
  revert hitem
  cases (t.get? ((path.getLast?.map (·.name)).getD "")).getD (.tables []) with
  | value => exact fun _ => .error _
  | table => exact fun _ => .error _
  | tables ts => exact fun hitem => .ok (ht.insert hitem)

theorem finish (hb : b.WellFormed) :
    Ensures (fun entries => (Value.table entries).WellFormed) b.finish :=
  .map fun t ht => (hb.complete t ht).toEntries

end WellFormed

end Builder

/-! ## Numbers, dates and times -/

/-- A date has hyphens in it. -/
theorem reads_date (text : List Char) : Reads ('-' ∈ ·.toList) (readDate text) := by
  refine .skip fun year rest => .skip fun _ rest => .committed ?_
  refine .skip fun month rest => .skip fun _ rest => .skip fun day rest => .ite ?_ (.error _)
  exact .ok (by simp) rest

/-- A time has colons in it. -/
theorem reads_time (text : List Char) : Reads (':' ∈ ·.toList) (readTime text) := by
  refine .skip fun hour rest => .skip fun _ rest => .committed ?_
  refine .skip fun minute rest => .skip fun _ rest => .skip fun second rest => ?_
  exact .ok (by simp) _

theorem reads_moment (text : List Char) : Reads Value.WellFormed (readMoment text) := by
  have hdate := reads_date text
  rw [readMoment]
  refine .inside _ ?_
  cases hread : readDate text with
  | ok x =>
    obtain ⟨date, rest⟩ := x
    have hmark : '-' ∈ date.toList := hdate (date, rest) hread
    exact .skipMap fun time rest => .moment (.inl (by simp [hmark]))
  | error f =>
    refine .ite (.error f) ?_
    exact (reads_time text).map fun time rest h => .moment (.inr h)

theorem reads_special (text : List Char) : Reads Value.WellFormed (readSpecial text) := by
  rw [readSpecial]
  split
  split
  · exact .ok (.real _) _
  · exact .ok (.real _) _
  · exact .error _

theorem reads_plainReal (text : List Char) : Reads Value.WellFormed (readPlainReal text) := by
  refine .skip fun whole rest => .skip fun places rest => .skip fun exponent rest => ?_
  exact .ite (.error _) (.ite (.error _) (.ok (.real _) rest))

theorem reads_real (text : List Char) : Reads Value.WellFormed (readReal text) := by
  have hplain := reads_plainReal text
  rw [readReal]
  refine .inside _ ?_
  cases hread : readPlainReal text with
  | ok x =>
    rw [hread] at hplain
    exact hplain
  | error f => exact .ite (.error f) (reads_special text)

theorem reads_integerOf (i : Int) (rest : List Char) :
    Reads Value.WellFormed (integerOf i rest) :=
  .ite (.error _) (.ite (.error _) (.ok (.integer i) rest))

theorem reads_based (construct : String) (base : Nat) (text : List Char) :
    Reads Value.WellFormed (readBased construct base text) :=
  .skip fun _ rest => reads_integerOf _ rest

theorem reads_integer (text : List Char) : Reads Value.WellFormed (readInteger text) := by
  rw [readInteger.eq_def]
  split
  · exact reads_based _ _ _
  · exact reads_based _ _ _
  · exact reads_based _ _ _
  · exact .skip fun _ rest => reads_integerOf _ rest

theorem reads_number (text : List Char) : Reads Value.WellFormed (readNumber text) := by
  have hmoment := reads_moment text
  have hreal := reads_real text
  rw [readNumber]
  cases hread : readMoment text with
  | ok x =>
    rw [hread] at hmoment
    exact hmoment
  | error f =>
    refine .ite (.error f) ?_
    cases hread : readReal text with
    | ok x =>
      rw [hread] at hreal
      exact hreal
    | error f => exact .ite (.error f) (reads_integer text)

/-! ## Values -/

theorem reads_word (word : String) {v : Value} (hv : v.WellFormed) (text : List Char) :
    Reads Value.WellFormed (readWord word v text) := by
  rw [readWord]
  cases afterWord? word.toList text with
  | some rest => exact .ok hv rest
  | none => exact .error _

section

variable {fuel : Nat} (hvalue : ∀ depth text, Reads Value.WellFormed (readValue depth fuel text))
  (hitems : ∀ depth first text, Reads (∀ v ∈ ·, v.WellFormed) (readItems depth fuel first text))
  (hpairs : ∀ depth first text,
    Reads (∀ pair ∈ ·, pair.2.2.WellFormed) (readPairs depth fuel first text))

include hitems hpairs in
theorem reads_value_succ (depth : Nat) (text : List Char) :
    Reads Value.WellFormed (readValue depth (fuel + 1) text) := by
  rw [readValue.eq_def]
  simp only
  split
  · exact .error _
  · cases depth with
    | zero => exact .error _
    | succ depth =>
      refine (hitems depth true _).committed.bind fun items rest h => ?_
      exact .skipMap fun _ rest => .list h
  · cases depth with
    | zero => exact .error _
    | succ depth =>
      refine (hpairs depth true _).committed.bind fun pairs rest h => ?_
      have htable := ensures_inlineTable h
      simp only
      cases htab : inlineTable pairs with
      | error cause => exact .error _
      | ok v => exact .skipMap fun _ rest => htable v htab
  · refine .ite ?_ <| .ite (reads_number _) <| .ite (.expecting _ (reads_integer _)) <|
      .ite (.expecting _ (reads_real _)) <| .ite (reads_word _ (.bool _) _) <|
      .ite (reads_word _ (.bool _) _) <| .ite (reads_word _ (.real _) _) <|
      .ite (reads_word _ (.real _) _) (.error _)
    exact .skipMap fun s rest => .text s

include hvalue hitems in
theorem reads_items_succ (depth : Nat) (first : Bool) (text : List Char) :
    Reads (∀ v ∈ ·, v.WellFormed) (readItems depth (fuel + 1) first text) := by
  rw [readItems.eq_def]
  simp only
  split
  · exact .ok nofun _
  · next start _ =>
    have hfirst := hvalue depth (skipLines start.length start)
    cases hread : readValue depth fuel (skipLines start.length start) with
    | error f => exact .ite (.error f) (.ok nofun _)
    | ok x =>
      obtain ⟨v, rest⟩ := x
      refine (hitems depth false _).map fun more rest hmore => ?_
      exact List.forall_mem_cons.mpr ⟨hfirst _ hread, hmore⟩

include hvalue hpairs in
theorem reads_pairs_succ (depth : Nat) (first : Bool) (text : List Char) :
    Reads (∀ pair ∈ ·, pair.2.2.WellFormed) (readPairs depth (fuel + 1) first text) := by
  rw [readPairs.eq_def]
  simp only
  split
  · exact .ok nofun _
  · next start _ =>
    cases readKey start with
    | error f => exact .ite (.error f) (.ok nofun _)
    | ok x =>
      refine .skip fun _ rest => ?_
      refine (hvalue depth _).committed.bind fun v rest hv => ?_
      refine (hpairs depth false _).map fun more rest hmore => ?_
      exact List.forall_mem_cons.mpr ⟨hv, hmore⟩

end

/-- **Values**, elements of lists and entries of inline tables. -/
theorem reads_value (fuel : Nat) :
    (∀ depth text, Reads Value.WellFormed (readValue depth fuel text)) ∧
    (∀ depth first text, Reads (∀ v ∈ ·, v.WellFormed) (readItems depth fuel first text)) ∧
    ∀ depth first text,
      Reads (∀ pair ∈ ·, pair.2.2.WellFormed) (readPairs depth fuel first text) := by
  induction fuel with
  | zero =>
    refine ⟨fun depth text => ?_, fun depth first text => ?_, fun depth first text => ?_⟩
    · rw [readValue]
      exact .error _
    · rw [readItems]
      exact .error _
    · rw [readPairs]
      exact .error _
  | succ fuel ih =>
    obtain ⟨hvalue, hitems, hpairs⟩ := ih
    exact ⟨reads_value_succ hitems hpairs, reads_items_succ hvalue hitems,
      reads_pairs_succ hvalue hpairs⟩

/-! ## Documents -/

theorem reads_step {b : Except Cause Builder} (hb : Ensures Builder.WellFormed b)
    (rest : List Char) : Reads Builder.WellFormed (step b rest) := by
  cases b with
  | error cause => exact .error _
  | ok b => exact .ok (hb b rfl) rest

section

variable {b : Builder} (hb : b.WellFormed)

include hb

theorem reads_entry (text : List Char) : Reads Builder.WellFormed (readEntry b text) := by
  refine .committed (.skip fun key rest => .skip fun _ rest => ?_)
  refine ((reads_value _).1 _ _).bind fun v rest hv => .skip fun _ rest => ?_
  exact reads_step (hb.addEntry key.1 key.2 hv) rest

theorem reads_header (text : List Char) : Reads Builder.WellFormed (readHeader b text) := by
  refine .committed (.inside _ ?_)
  split
  · refine .skip ?_
    rintro ⟨path, key⟩ rest
    exact .skip fun _ rest => .skip fun _ rest => reads_step (hb.openElement (path ++ [key])) rest
  · refine .skip ?_
    rintro ⟨path, key⟩ rest
    exact .skip fun _ rest => .skip fun _ rest => reads_step (hb.openTable (path ++ [key])) rest
  · exact .error _

end

/-- Every line of a document keeps the keys distinct, so all of them do. -/
theorem ensures_readLines {b : Builder} (hb : b.WellFormed) (fuel : Nat) (text : List Char) :
    Ensures Builder.WellFormed (readLines b fuel text) := by
  induction fuel generalizing b text with
  | zero => exact .error _
  | succ fuel ih =>
    rw [readLines.eq_def]
    simp only
    split
    · exact .ok hb
    · next b' rest hline =>
      refine ih ?_ rest
      split at hline
      · cases hline
      · -- a comment
        split at hline
        · cases hline
          exact hb
        · cases hline
      · exact reads_header hb _ _ (Option.some.inj hline)
      · -- an empty line or an entry
        split at hline
        · cases hline
          exact hb
        · exact Reads.ite (.error _) (reads_entry hb _) _ (Option.some.inj hline)
    · exact .error _

/-- **The keys of a document are distinct** in each of its tables. -/
theorem ensures_parse (text : List Char) :
    Ensures (fun entries => (Value.table entries).WellFormed) (parse text) :=
  (ensures_readLines Builder.wellFormed_empty _ _).bind fun _ hb => .mapError hb.finish

end ScriptLint.Toml
