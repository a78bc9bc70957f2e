import GrammarArtifact.Toml.Document
import Mathlib.Data.Option.Basic

/-! Documents as texts give them. A text may come back to a table under several headers, dotted keys
and braces; `Document.ordered_of_ofText?` says that whatever it is read as has, in every table at
every depth, distinct keys in ascending order. Two lemmas carry this: `Entries.alter_eq_some`, by
which every change to a table under construction is a change at one key and leaves the others where
they are, and `Reader.Yields.loop`, by which what each step of a reader keeps holds of its result.
A `Parser` is any way to make documents of texts of which as much is known. -/

namespace GrammarArtifact

namespace Toml

/-! ## Order in values and in tables under construction -/

section

variable {β γ : Type} {entries : List (String × β)}

/-- The keys are distinct and in ascending order. -/
def Ascending (entries : List (String × β)) : Prop := entries.Pairwise fun a b => a.1 < b.1

theorem ascending_iff : Ascending entries ↔ (entries.map Prod.fst).Pairwise (· < ·) :=
  List.pairwise_map.symm

theorem Ascending.nodup (h : Ascending entries) : (entries.map Prod.fst).Nodup := by
  refine List.pairwise_map.2 (h.imp fun {a b} less same => ?_)
  exact String.lt_irrefl b.1 (same ▸ less)

theorem Ascending.map_snd {f : β → γ} (h : Ascending entries) :
    Ascending (entries.map fun e => (e.1, f e.2)) :=
  List.pairwise_map.2 h

end

/-- Every table of a value has its keys in order. -/
inductive Value.Ordered : Value → Prop
  | string (s : String) : Ordered (.string s)
  | integer (n : Int) : Ordered (.integer n)
  | float (x : Binary64) : Ordered (.float x)
  | unreadable (written : String) : Ordered (.unreadable written)
  | boolean (b : Bool) : Ordered (.boolean b)
  | moment (written : String) : Ordered (.moment written)
  | array {items : List Value} (each : ∀ v ∈ items, Ordered v) : Ordered (.array items)
  | table {entries : List (String × Value)} (keys : Ascending entries)
    (each : ∀ e ∈ entries, Ordered e.2) : Ordered (.table entries)

inductive Node.Ordered : Node → Prop
  | value {v : Value} (h : v.Ordered) : Ordered (.value v)
  | table {origin : Origin} {entries : List (String × Node)} (keys : Ascending entries)
    (each : ∀ e ∈ entries, Ordered e.2) : Ordered (.table origin entries)
  | elements {closed : List Value} {last : List (String × Node)}
    (earlier : ∀ v ∈ closed, v.Ordered) (keys : Ascending last)
    (each : ∀ e ∈ last, Ordered e.2) : Ordered (.elements closed last)

structure Entries.Ordered (entries : Entries) : Prop where
  keys : Ascending entries
  each : ∀ e ∈ entries, e.2.Ordered

/-- A document is a table. -/
abbrev Document.Ordered (document : Document) : Prop := (Value.table document).Ordered

theorem Value.Ordered.nodup {entries : List (String × Value)} (h : (Value.table entries).Ordered) :
    (entries.map Prod.fst).Nodup := by
  cases h with
  | table keys _ => exact keys.nodup

theorem Value.Ordered.of_entry {entries : List (String × Value)}
    (h : (Value.table entries).Ordered) {key : String} {v : Value} (hv : (key, v) ∈ entries) :
    v.Ordered := by
  cases h with
  | table _ each => exact each _ hv

theorem Value.Ordered.of_item {items : List Value} (h : (Value.array items).Ordered) {v : Value}
    (hv : v ∈ items) : v.Ordered := by
  cases h with
  | array each => exact each v hv

theorem closeAll_eq_map (entries : Entries) :
    closeAll entries = entries.map fun e => (e.1, e.2.close) := by
  induction entries with
  | nil => rw [closeAll]; rfl
  | cons e rest ih => rw [closeAll, ih]; rfl

theorem ordered_closeAll {entries : Entries} (keys : Ascending entries)
    (each : ∀ e ∈ entries, e.2.close.Ordered) : Document.Ordered (closeAll entries) := by
  rw [closeAll_eq_map]
  refine .table keys.map_snd fun e he => ?_
  obtain ⟨e', he', rfl⟩ := List.mem_map.1 he
  exact each e' he'

theorem Node.Ordered.close {node : Node} (h : node.Ordered) : node.close.Ordered := by
  induction h with
  | value h => rw [Node.close]; exact h
  | table keys _ ih => rw [Node.close]; exact ordered_closeAll keys ih
  | elements earlier keys _ ih =>
    rw [Node.close]
    refine .array fun v hv => ?_
    rcases List.mem_append.1 hv with hv | hv
    · exact earlier v hv
    · exact List.mem_singleton.1 hv ▸ ordered_closeAll keys ih

theorem Node.Ordered.inner {origin : Origin} {entries : Entries}
    (h : (Node.table origin entries).Ordered) : entries.Ordered := by
  cases h with
  | table keys each => exact ⟨keys, each⟩

theorem Node.Ordered.last {closed : List Value} {last : Entries}
    (h : (Node.elements closed last).Ordered) :
    (∀ v ∈ closed, v.Ordered) ∧ last.Ordered := by
  cases h with
  | elements earlier keys each => exact ⟨earlier, keys, each⟩

def Part.assignments : Part → List Assignment
  | table _ _ assignments | element _ _ assignments => assignments

namespace Entries

variable {key : String} {change : Option Node → Option Node} {entries entries' : Entries}

theorem Ordered.closeAll (h : Ordered entries) : Document.Ordered (closeAll entries) :=
  ordered_closeAll h.keys fun e he => (h.each e he).close

theorem Ordered.nil : Ordered [] := ⟨.nil, nofun⟩

theorem Ordered.table {origin : Origin} (h : Ordered entries) :
    (Node.table origin entries).Ordered :=
  .table h.keys h.each

theorem Ordered.elements {closed : List Value} (h : Ordered entries)
    (earlier : ∀ v ∈ closed, v.Ordered) : (Node.elements closed entries).Ordered :=
  .elements earlier h.keys h.each

/-! ## Changes at one key -/

/-- What a change at a key does: it finds what the key holds, if anything, and puts its own result
there. Everything else stays, on the side of the key where it was. -/
theorem alter_eq_some (h : alter key change entries = some entries') (keys : Ascending entries) :
    ∃ (before : Entries) (found : Option Node) (node : Node) (after : Entries),
      entries = before ++ (found.toList.map (key, ·) ++ after) ∧ change found = some node ∧
      entries' = before ++ (key, node) :: after ∧ (∀ e ∈ before, e.1 < key) ∧
      ∀ e ∈ after, key < e.1 := by
  induction entries generalizing entries' with
  | nil =>
    obtain ⟨node, hnode, h⟩ := Option.bind_eq_some_iff.1 h
    exact ⟨[], none, node, [], rfl, hnode, (Option.some.inj h).symm, nofun, nofun⟩
  | cons e rest ih =>
    obtain ⟨k, there⟩ := e
    obtain ⟨above, keys⟩ := List.pairwise_cons.1 keys
    rw [alter] at h
    split at h
    next less =>
      obtain ⟨node, hnode, h⟩ := Option.bind_eq_some_iff.1 h
      refine ⟨[], none, node, (k, there) :: rest, rfl, hnode, (Option.some.inj h).symm, nofun, ?_⟩
      intro e he
      rcases List.mem_cons.1 he with rfl | he
      · exact less
      · exact String.lt_trans less (above e he)
    next notLess =>
      split at h
      next same =>
        obtain ⟨node, hnode, h⟩ := Option.bind_eq_some_iff.1 h
        subst same
        exact ⟨[], some there, node, rest, rfl, hnode, (Option.some.inj h).symm, nofun, above⟩
      next other =>
        obtain ⟨later, hlater, h⟩ := Option.bind_eq_some_iff.1 h
        obtain ⟨before, found, node, after, rfl, hnode, rfl, below, hafter⟩ := ih hlater keys
        refine ⟨(k, there) :: before, found, node, after, rfl, hnode, (Option.some.inj h).symm, ?_,
          hafter⟩
        intro e he
        rcases List.mem_cons.1 he with rfl | he
        · exact Std.lt_of_le_of_ne (String.not_lt.1 notLess) (Ne.symm other)
        · exact below e he

/-- A change that keeps nodes in order keeps tables in order. -/
theorem Ordered.alter (ordered : Ordered entries)
    (keeps : ∀ found node, (∀ n ∈ found, n.Ordered) → change found = some node → node.Ordered)
    (h : alter key change entries = some entries') : Ordered entries' := by
  obtain ⟨before, found, node, after, rfl, hnode, rfl, below, above⟩ :=
    alter_eq_some h ordered.keys
  obtain ⟨keysBefore, keysAfter, -⟩ := List.pairwise_append.1 ordered.keys
  refine ⟨List.pairwise_append.2 ⟨keysBefore, List.pairwise_cons.2 ⟨above, ?_⟩, ?_⟩, ?_⟩
  · exact (List.pairwise_append.1 keysAfter).2.1
  · intro e he e' he'
    rcases List.mem_cons.1 he' with rfl | he'
    · exact below e he
    · exact String.lt_trans (below e he) (above e' he')
  · intro e he
    rcases List.mem_append.1 he with he | he
    · exact ordered.each e (List.mem_append_left _ he)
    rcases List.mem_cons.1 he with rfl | he
    · refine keeps found node (fun n hn => ?_) hnode
      have there : (key, n) ∈ found.toList.map (key, ·) :=
        List.mem_map_of_mem (Option.mem_toList.2 hn)
      exact ordered.each _ (List.mem_append_right _ (List.mem_append_left _ there))
    · exact ordered.each e (List.mem_append_right _ (List.mem_append_right _ he))

/-- Assignments keep tables in order, along dotted keys of any length. -/
theorem Ordered.assignAt {path : List String} {value : Value} (ordered : Ordered entries)
    (hvalue : value.Ordered) (h : assignAt key value path entries = some entries') :
    Ordered entries' := by
  induction path generalizing entries entries' with
  | nil =>
    refine ordered.alter (fun found node _ h => ?_) h
    cases found with
    | none => exact Option.some.inj h ▸ .value hvalue
    | some _ => nomatch h
  | cons k path ih =>
    refine ordered.alter (fun found node hfound h => ?_) h
    match found, hfound, h with
    | none, _, h =>
      obtain ⟨inner, hinner, h⟩ := Option.bind_eq_some_iff.1 h
      exact Option.some.inj h ▸ (ih .nil hinner).table
    | some (.table .dotted entries), hfound, h =>
      obtain ⟨inner, hinner, h⟩ := Option.bind_eq_some_iff.1 h
      exact Option.some.inj h ▸ (ih (hfound _ rfl).inner hinner).table
    | some (.table .implied entries), hfound, h =>
      obtain ⟨inner, hinner, h⟩ := Option.bind_eq_some_iff.1 h
      exact Option.some.inj h ▸ (ih (hfound _ rfl).inner hinner).table
    | some (.elements closed last), hfound, h =>
      obtain ⟨_, -, h⟩ := Option.bind_eq_some_iff.1 h
      obtain ⟨inner, hinner, h⟩ := Option.bind_eq_some_iff.1 h
      obtain ⟨earlier, hlast⟩ := (hfound _ rfl).last
      exact Option.some.inj h ▸ (ih hlast hinner).elements earlier

theorem Ordered.assignAll {assignments : List Assignment} (ordered : Ordered entries)
    (values : ∀ a ∈ assignments, a.value.Ordered)
    (h : assignAll entries assignments = some entries') : Ordered entries' := by
  induction assignments generalizing entries with
  | nil => exact Option.some.inj h ▸ ordered
  | cons a rest ih =>
    obtain ⟨next, hnext, h⟩ := Option.bind_eq_some_iff.1 h
    obtain ⟨first, rest⟩ := List.forall_mem_cons.1 values
    exact ih (ordered.assignAt first hnext) rest h

/-- Headers keep tables in order, whatever they change at the end of their path. -/
theorem Ordered.descend {change : Entries → Option Entries} {path : List String}
    (ordered : Ordered entries)
    (keeps : ∀ entries entries', Ordered entries → change entries = some entries' →
      Ordered entries')
    (h : descend change path entries = some entries') : Ordered entries' := by
  induction path generalizing entries entries' with
  | nil => exact keeps _ _ ordered h
  | cons k path ih =>
    refine ordered.alter (fun found node hfound h => ?_) h
    match found, hfound, h with
    | none, _, h =>
      obtain ⟨inner, hinner, h⟩ := Option.bind_eq_some_iff.1 h
      exact Option.some.inj h ▸ (ih .nil hinner).table
    | some (.table origin entries), hfound, h =>
      obtain ⟨inner, hinner, h⟩ := Option.bind_eq_some_iff.1 h
      exact Option.some.inj h ▸ (ih (hfound _ rfl).inner hinner).table
    | some (.elements closed last), hfound, h =>
      obtain ⟨inner, hinner, h⟩ := Option.bind_eq_some_iff.1 h
      obtain ⟨earlier, hlast⟩ := (hfound _ rfl).last
      exact Option.some.inj h ▸ (ih hlast hinner).elements earlier

theorem Ordered.addPart {part : Part} (ordered : Ordered entries)
    (values : ∀ a ∈ part.assignments, a.value.Ordered)
    (h : addPart entries part = some entries') : Ordered entries' := by
  cases part with
  | table path key assignments =>
    refine ordered.descend (fun entries entries' ordered h => ?_) h
    refine ordered.alter (fun found node hfound h => ?_) h
    match found, hfound, h with
    | none, _, h =>
      obtain ⟨inner, hinner, h⟩ := Option.bind_eq_some_iff.1 h
      exact Option.some.inj h ▸ (Ordered.nil.assignAll values hinner).table
    | some (.table .implied entries), hfound, h =>
      obtain ⟨inner, hinner, h⟩ := Option.bind_eq_some_iff.1 h
      exact Option.some.inj h ▸ ((hfound _ rfl).inner.assignAll values hinner).table
  | element path key assignments =>
    refine ordered.descend (fun entries entries' ordered h => ?_) h
    refine ordered.alter (fun found node hfound h => ?_) h
    match found, hfound, h with
    | none, _, h =>
      obtain ⟨inner, hinner, h⟩ := Option.bind_eq_some_iff.1 h
      exact Option.some.inj h ▸ (Ordered.nil.assignAll values hinner).elements nofun
    | some (.elements closed last), hfound, h =>
      obtain ⟨inner, hinner, h⟩ := Option.bind_eq_some_iff.1 h
      obtain ⟨earlier, hlast⟩ := (hfound _ rfl).last
      refine Option.some.inj h ▸ (Ordered.nil.assignAll values hinner).elements fun v hv => ?_
      rcases List.mem_append.1 hv with hv | hv
      · exact earlier v hv
      · exact List.mem_singleton.1 hv ▸ hlast.closeAll

end Entries

theorem ordered_tableOfAssignments? {assignments : List Assignment} {document : Document}
    (values : ∀ a ∈ assignments, a.value.Ordered)
    (h : tableOfAssignments? assignments = some document) : document.Ordered := by
  obtain ⟨entries, hentries, h⟩ := Option.bind_eq_some_iff.1 h
  exact Option.some.inj h ▸ (Entries.Ordered.nil.assignAll values hentries).closeAll

/-! ## Values without parts -/

namespace Number

variable {word : List Char} {v : Value}

theorem ordered_integer (word : List Char) (n : Int) : (integer word n).Ordered := by
  unfold integer
  split
  · exact .integer n
  · exact .unreadable _

theorem ordered_of_marked? {base : Nat} {isDigit : Char → Bool}
    (h : marked? base isDigit word = some v) : v.Ordered := by
  obtain ⟨_, -, h⟩ := Option.bind_eq_some_iff.1 h
  cases h
  split
  · exact .unreadable _
  · exact ordered_integer _ _

theorem ordered_of_decimal? (h : decimal? word = some v) : v.Ordered := by
  unfold decimal? at h
  generalize sign word = signed at h
  obtain ⟨_, -, h⟩ := Option.bind_eq_some_iff.1 h
  obtain ⟨_, -, h⟩ := Option.bind_eq_some_iff.1 h
  obtain ⟨_, -, h⟩ := Option.bind_eq_some_iff.1 h
  cases h
  split
  · exact ordered_integer _ _
  · exact .unreadable _

/-- A part that may be absent: however it was come by, the rest goes on with it. -/
theorem exists_of_either {α : Type} {p : Prop} [Decidable p] {x y : Option α} {f : α → Option Value}
    (h : (if p then x >>= f else y >>= f) = some v) : ∃ a, f a = some v := by
  split at h
  · obtain ⟨a, -, h⟩ := Option.bind_eq_some_iff.1 h
    exact ⟨a, h⟩
  · obtain ⟨a, -, h⟩ := Option.bind_eq_some_iff.1 h
    exact ⟨a, h⟩

theorem ordered_of_decimalFloat? (h : decimalFloat? word = some v) : v.Ordered := by
  unfold decimalFloat? at h
  generalize sign word = signed at h
  obtain ⟨_, -, h⟩ := Option.bind_eq_some_iff.1 h
  obtain ⟨wholeDigits, -, h⟩ := Option.bind_eq_some_iff.1 h
  obtain ⟨_, -, h⟩ := Option.bind_eq_some_iff.1 h
  obtain ⟨fraction, h⟩ := exists_of_either h
  obtain ⟨exponent, h⟩ := exists_of_either h
  cases h
  split
  · exact .unreadable _
  · exact .float _

end Number

theorem ordered_of_ofNumber? {word : List Char} {v : Value} (h : Value.ofNumber? word = some v) :
    v.Ordered := by
  unfold Value.ofNumber? at h
  split at h
  next => exact Number.ordered_of_marked? h
  next => exact Number.ordered_of_marked? h
  next => exact Number.ordered_of_marked? h
  next =>
    split at h
    next => exact Option.some.inj h ▸ .float _
    next => exact Option.some.inj h ▸ .float _
    next =>
      split at h
      · exact Number.ordered_of_decimalFloat? h
      · exact Number.ordered_of_decimal? h

/-! ## What readers yield -/

namespace Reader

variable {α β σ : Type} {P : α → Prop} {Q : β → Prop} {r : Reader α}

/-- Whatever the reader reads, from whatever text, has the property. -/
def Yields (P : α → Prop) (r : Reader α) : Prop :=
  ∀ cs a rest, r cs = some (a, rest) → P a

theorem Yields.any : Yields (fun _ => True) r := fun _ _ _ _ => trivial

theorem Yields.pure {a : α} (h : P a) : Yields P (pure a : Reader α) := by
  intro cs b rest same
  cases same
  exact h

theorem Yields.bind {f : α → Reader β} (hr : Yields P r) (hf : ∀ a, P a → Yields Q (f a)) :
    Yields Q (r >>= f) := by
  intro cs b rest h
  obtain ⟨⟨a, left⟩, ha, h⟩ := Option.bind_eq_some_iff.1 h
  exact hf a (hr cs a left ha) left b rest h

/-- What comes first does not matter. -/
theorem Yields.after {f : α → Reader β} (hf : ∀ a, Yields Q (f a)) : Yields Q (r >>= f) :=
  Yields.any.bind fun a _ => hf a

/-- An invariant of the states between steps. -/
theorem Yields.loop {I : σ → Prop} {step : σ → Reader (σ ⊕ α)}
    (keeps : ∀ state, I state → Yields (Sum.elim I P) (step state)) {state : σ}
    (start : I state) : Yields P (loop step state) := by
  intro cs a rest h
  fun_induction Reader.loop step state cs with
  | case1 => nomatch h
  | case2 state cs result left hstep =>
    cases h
    exact keeps state start cs _ _ hstep
  | case3 state cs next left hstep shorter ih => exact ih (keeps state start cs _ _ hstep) h
  | case4 => nomatch h

theorem yields_items {close : Char} (h : Yields P r) :
    Yields (fun found => ∀ a ∈ found, P a) (items close r) := by
  have all : ∀ found : List α, (∀ a ∈ found, P a) → ∀ a ∈ found.reverse, P a :=
    fun found each a ha => each a (List.mem_reverse.1 ha)
  refine .after fun _ => .loop (I := fun found => ∀ a ∈ found, P a) (fun found each => ?_) nofun
  refine .after fun closed => ?_
  split
  · exact .pure (all found each)
  refine h.bind fun a ha => .after fun _ => .after fun comma => ?_
  have more : ∀ b ∈ a :: found, P b := List.forall_mem_cons.2 ⟨ha, each⟩
  split
  · exact .after fun _ => .pure more
  · exact .after fun _ => .pure (all _ more)

theorem yields_assignment {gap : Reader Unit} {value : Reader Value}
    (h : Yields Value.Ordered value) :
    Yields (fun a => a.value.Ordered) (assignment gap value) :=
  .after fun (_, _) => .after fun _ => .after fun _ => .after fun _ => h.bind fun _ hv => .pure hv

theorem ordered_of_valueOfWord {word : List Char} {v : Value} (h : valueOfWord word = some v) :
    v.Ordered := by
  unfold valueOfWord at h
  split at h
  next => exact Option.some.inj h ▸ .boolean _
  next =>
    split at h
    next => exact Option.some.inj h ▸ .boolean _
    next =>
      split at h
      · exact Option.some.inj h ▸ .moment _
      · exact ordered_of_ofNumber? h

theorem yields_scalar : Yields Value.Ordered scalar := by
  refine .after fun following => ?_
  split
  next => exact .after fun text => .pure (.string text)
  next => exact .after fun text => .pure (.string text)
  next =>
    refine .after fun found cs v rest h => ?_
    obtain ⟨w, hw, same⟩ := Option.map_eq_some_iff.1 h
    cases same
    exact ordered_of_valueOfWord hw

theorem yields_value (depth : Nat) : Yields Value.Ordered (value depth) := by
  induction depth with
  | zero => exact yields_scalar
  | succ depth ih =>
    refine .after fun following => ?_
    split
    next => exact .after fun _ => (yields_items ih).bind fun items each => .pure (.array each)
    next =>
      refine .after fun _ => (yields_items (yields_assignment ih)).bind fun assignments each => ?_
      intro cs v rest h
      obtain ⟨document, hdocument, same⟩ := Option.map_eq_some_iff.1 h
      cases same
      exact ordered_tableOfAssignments? each hdocument
    next => exact yields_scalar

end Reader

/-! ## Statements and documents -/

/-- The value that a statement assigns, if it assigns one, has its tables in order. -/
def Statement.Ordered : Statement → Prop
  | assign a => a.value.Ordered
  | table _ _ | element _ _ => True

theorem Reader.yields_statement : Yields Statement.Ordered statement := by
  refine .after fun opensElement => ?_
  split
  · exact .after fun _ => .after fun _ => .after fun _ => .pure trivial
  refine .after fun opensTable => ?_
  split
  · exact .after fun _ => .after fun _ => .pure trivial
  · exact (yields_assignment (yields_value maxDepth)).bind fun a ha => .pure ha

theorem Reader.yields_statements :
    Yields (fun statements => ∀ s ∈ statements, s.Ordered) statements := by
  refine .loop (I := fun found => ∀ s ∈ found, s.Ordered) (fun found each => ?_) nofun
  refine .after fun _ => .after fun following => ?_
  split
  · exact .pure fun s hs => each s (List.mem_reverse.1 hs)
  · exact yields_statement.bind fun s hs => .after fun _ =>
      .pure (List.forall_mem_cons.2 ⟨hs, each⟩)

theorem ordered_parts {statements : List Statement} (h : ∀ s ∈ statements, s.Ordered) :
    (∀ a ∈ (parts statements).1, a.value.Ordered) ∧
      ∀ part ∈ (parts statements).2, ∀ a ∈ part.assignments, a.value.Ordered := by
  induction statements with
  | nil => exact ⟨nofun, nofun⟩
  | cons s rest ih =>
    obtain ⟨first, rest⟩ := List.forall_mem_cons.1 h
    obtain ⟨above, later⟩ := ih rest
    cases s with
    | assign a => exact ⟨List.forall_mem_cons.2 ⟨first, above⟩, later⟩
    | table path key => exact ⟨nofun, List.forall_mem_cons.2 ⟨above, later⟩⟩
    | element path key => exact ⟨nofun, List.forall_mem_cons.2 ⟨above, later⟩⟩

theorem Entries.Ordered.addParts {later : List Part} {entries entries' : Entries}
    (ordered : Ordered entries)
    (values : ∀ part ∈ later, ∀ a ∈ part.assignments, a.value.Ordered)
    (h : later.foldlM Entries.addPart entries = some entries') : Ordered entries' := by
  induction later generalizing entries with
  | nil => exact Option.some.inj h ▸ ordered
  | cons part rest ih =>
    obtain ⟨next, hnext, h⟩ := Option.bind_eq_some_iff.1 h
    obtain ⟨first, rest⟩ := List.forall_mem_cons.1 values
    exact ih (ordered.addPart first hnext) rest h

/-- In what a text is read as, every table has distinct keys in ascending order. -/
theorem Document.ordered_of_ofText? {text : String} {document : Document}
    (h : ofText? text = some document) : document.Ordered := by
  obtain ⟨⟨statements, rest⟩, hread, h⟩ := Option.bind_eq_some_iff.1 h
  obtain ⟨root, hroot, h⟩ := Option.bind_eq_some_iff.1 h
  obtain ⟨entries, hentries, h⟩ := Option.bind_eq_some_iff.1 h
  obtain ⟨above, later⟩ := ordered_parts (Reader.yields_statements _ _ _ hread)
  have ordered := (Entries.Ordered.nil.assignAll above hroot).addParts later hentries
  exact Option.some.inj h ▸ ordered.closeAll

/-- A way to make documents of texts. Which texts it takes for documents is its own affair. -/
structure Parser where
  parse : String → Option Document
  ordered {text : String} {document : Document} (h : parse text = some document) : document.Ordered

def Parser.standard : Parser := ⟨Document.ofText?, Document.ordered_of_ofText?⟩

end Toml

end GrammarArtifact
