import GrammarArtifact.Proofs.Acceptance
import GrammarArtifact.Proofs.Stages

/-! The checks of a load, one by one. `Format.Check.all` lists them in the order in which they are
made, each as a condition on the bytes with the error that reports it. A load passes when all of
them hold and otherwise answers with the error of the first that does not (`Loader.decides_load`);
two loads that are made of such parts are put together by `Format.Decides.bind`. -/

namespace GrammarArtifact

namespace Format

/-- A condition that a load puts on a byte string. -/
inductive Check where
  | present
  | tagLength
  | magic
  | version
  | fixedLength
  | sectionCount
  | headerLength
  | inside (s : Section)
  /-- A section starts no earlier than the one in front of it stops. -/
  | ordered (previous s : Section)
  | bounded (count bound : Count)
  | states
  | name
  | terminated (s : Section)
  | symbolCount
  | fieldCount
  | length (s : Section) (expected : Nat)

section

variable (range : VersionRange) (bytes : Bytes)

def count : Count → Nat
  | .symbols => symbols bytes
  | .tokens => tokens bytes
  | .externals => externals bytes
  | .states => states bytes
  | .largeStates => largeStates bytes
  | .fields => fields bytes

/-- The bytes of a table whose entries are equally wide: as many entries as the counts say. -/
def impliedLength? : Section → Option Nat
  | .symbolMetadata => some (symbols bytes)
  | .parseTable => some (2 * largeStates bytes * symbols bytes)
  | .lexModes => some (4 * states bytes)
  | .primaryStateIds => some (2 * states bytes)
  | .name | .symbolNames | .fieldNames => none

namespace Check

def Holds : Check → Prop
  | present => bytes ≠ []
  | tagLength => 12 ≤ bytes.length
  | magic => Bytes.ofText "TSLANGv1" <+: bytes
  | version => range.min.toNat ≤ Format.version bytes ∧ Format.version bytes ≤ range.max.toNat
  | fixedLength => 40 ≤ bytes.length
  | sectionCount => word bytes 36 = Format.sectionCount bytes
  | headerLength => 40 + 8 * Format.sectionCount bytes ≤ bytes.length
  | inside s => start bytes s + size bytes s ≤ (payload bytes).length
  | ordered previous s => start bytes previous + size bytes previous ≤ start bytes s
  | bounded c bound => count bytes c ≤ count bytes bound
  | states => Format.states bytes ≤ 65536
  | name => ∃ name, name ≠ "" ∧ Bytes.ofText name = contents bytes .name
  | terminated s => StringTable.Terminated (contents bytes s)
  | symbolCount => ∀ n ∈ StringTable.count (contents bytes .symbolNames), n = symbols bytes
  | fieldCount => ∀ n ∈ StringTable.count (contents bytes .fieldNames), n = fields bytes
  | length s expected => (contents bytes s).length = expected

/-- What is reported when a check does not hold. -/
def error : Check → LoadError
  | present => .missing
  | tagLength => .ofHeader (.truncated 12 bytes.length)
  | magic => .ofHeader .badMagic
  | version => .incompatible (tag bytes) range
  | fixedLength => .ofHeader (.truncated 40 bytes.length)
  | sectionCount => .ofHeader (.sectionCount (tag bytes) (Format.sectionCount bytes)
      (UInt32.ofNat (word bytes 36)))
  | headerLength => .ofHeader (.truncated (40 + 8 * Format.sectionCount bytes) bytes.length)
  | inside s => .defective (.dangling s (extent bytes s) (payload bytes).length)
  | ordered previous s => .defective (.overlapping previous s)
  | bounded c bound => .defective (.inconsistentCounts c (UInt32.ofNat (count bytes c)) bound
      (UInt32.ofNat (count bytes bound)))
  | states => .defective (.tooManyStates (UInt32.ofNat (Format.states bytes)))
  | name => .defective .badName
  | terminated s => .defective (.unterminated s)
  | symbolCount => .defective (.symbolCount (UInt32.ofNat (symbols bytes))
      ((contents bytes .symbolNames).count 0))
  | fieldCount => .defective (.fieldCount (UInt32.ofNat (fields bytes))
      ((contents bytes .fieldNames).count 0))
  | length s expected => .defective (.sectionLength s expected (contents bytes s).length)

/-! ## The order of the checks -/

/-- Each section is looked for in the payload and then compared with the one in front of it. -/
def layout : (previous : Option Section) → List Section → List Check
  | _, [] => []
  | previous, s :: rest =>
    inside s :: (previous.toList.map (ordered · s) ++ layout (some s) rest)

def counts : List Check :=
  [bounded .tokens .symbols, bounded .externals .tokens, bounded .largeStates .states, states]

def contents (s : Section) : List Check :=
  match s with
  | .name => [name]
  | .symbolNames => [terminated s, symbolCount]
  | .fieldNames => [terminated s, fieldCount]
  | s => (impliedLength? bytes s).toList.map (length s)

/-- All checks of a load, the first one in front. -/
def all : List Check :=
  [present, tagLength, magic, version, fixedLength, sectionCount, headerLength] ++
    (layout none (Section.ofVersion (tag bytes)) ++
      (counts ++ (Section.ofVersion (tag bytes)).flatMap (contents bytes)))

end Check

/-- An error that reports a check which does not hold, while every check in front of it does. -/
def FirstFailure (checks : List Check) (e : LoadError) : Prop :=
  ∃ before c after, checks = before ++ c :: after ∧ (∀ b ∈ before, b.Holds range bytes) ∧
    ¬c.Holds range bytes ∧ e = c.error range bytes

/-- An outcome that the checks of a list decide. -/
def Decides {α : Type} (checks : List Check) : Except LoadError α → Prop
  | .ok _ => ∀ c ∈ checks, c.Holds range bytes
  | .error e => FirstFailure range bytes checks e

end

variable {range : VersionRange} {bytes : Bytes} {checks later : List Check} {c : Check}
  {e e' : LoadError}

/-! ## First failures -/

theorem firstFailure_cons : FirstFailure range bytes (c :: checks) e ↔
    (¬c.Holds range bytes ∧ e = c.error range bytes) ∨
      (c.Holds range bytes ∧ FirstFailure range bytes checks e) := by
  constructor
  · rintro ⟨before, d, after, hsplit, hbefore, hd, rfl⟩
    cases before with
    | nil =>
      obtain ⟨rfl, rfl⟩ := List.cons.inj hsplit
      exact .inl ⟨hd, rfl⟩
    | cons b before =>
      obtain ⟨rfl, rfl⟩ := List.cons.inj hsplit
      obtain ⟨hc, hbefore⟩ := List.forall_mem_cons.1 hbefore
      exact .inr ⟨hc, before, d, after, rfl, hbefore, hd, rfl⟩
  · rintro (⟨hc, rfl⟩ | ⟨hc, before, d, after, rfl, hbefore, hd, rfl⟩)
    · exact ⟨[], c, checks, rfl, fun _ h => (nomatch h), hc, rfl⟩
    · exact ⟨c :: before, d, after, rfl, List.forall_mem_cons.2 ⟨hc, hbefore⟩, hd, rfl⟩

theorem FirstFailure.append (h : FirstFailure range bytes checks e) (later : List Check) :
    FirstFailure range bytes (checks ++ later) e := by
  obtain ⟨before, c, after, rfl, hbefore, hc, rfl⟩ := h
  exact ⟨before, c, after ++ later, by rw [List.append_assoc, List.cons_append], hbefore, hc, rfl⟩

theorem FirstFailure.of_append (hchecks : ∀ c ∈ checks, c.Holds range bytes)
    (h : FirstFailure range bytes later e) : FirstFailure range bytes (checks ++ later) e := by
  obtain ⟨before, c, after, rfl, hbefore, hc, rfl⟩ := h
  refine ⟨checks ++ before, c, after, (List.append_assoc ..).symm, ?_, hc, rfl⟩
  exact List.forall_mem_append.2 ⟨hchecks, hbefore⟩

theorem FirstFailure.unique (h : FirstFailure range bytes checks e)
    (h' : FirstFailure range bytes checks e') : e = e' := by
  induction checks with
  | nil =>
    obtain ⟨before, c, after, hsplit, -⟩ := h
    exact absurd hsplit.symm (List.append_ne_nil_of_right_ne_nil _ (List.cons_ne_nil _ _))
  | cons c rest ih =>
    rcases firstFailure_cons.1 h with ⟨hc, rfl⟩ | ⟨hc, hrest⟩ <;>
      rcases firstFailure_cons.1 h' with ⟨hc', rfl⟩ | ⟨hc', hrest'⟩
    · rfl
    · exact absurd hc' hc
    · exact absurd hc hc'
    · exact ih hrest hrest'

/-! ## Outcomes that checks decide -/

namespace Decides

variable {α β : Type} {x : Except LoadError α} {f : α → Except LoadError β}

/-- The error is the one of the first check that fails, and there is no other. -/
theorem eq_error_iff (h : Decides range bytes checks x) :
    x = .error e ↔ FirstFailure range bytes checks e := by
  cases x with
  | error e' =>
    exact ⟨fun heq => Except.error.inj heq ▸ h, fun he => congrArg _ (h.unique he)⟩
  | ok a =>
    refine ⟨fun heq => (nomatch heq), fun ⟨before, c, after, hsplit, _, hc, _⟩ => ?_⟩
    subst hsplit
    exact absurd (h c (by simp)) hc

/-- Where the first part passes, the checks of what follows it come after its own. -/
theorem bind (hx : Decides range bytes checks x)
    (hf : ∀ a, x = .ok a → Decides range bytes later (f a)) :
    Decides range bytes (checks ++ later) (x >>= f) := by
  cases x with
  | error e => exact hx.append later
  | ok a =>
    have ha := hf a rfl
    rw [ok_bind]
    cases hfa : f a with
    | error e =>
      rw [hfa] at ha
      exact FirstFailure.of_append hx ha
    | ok b =>
      rw [hfa] at ha
      exact List.forall_mem_append.2 ⟨hx, ha⟩

/-- What follows plays no part where it cannot fail. -/
theorem bind_of_ok (hx : Decides range bytes checks x) (hf : ∀ a, x = .ok a → ∃ b, f a = .ok b) :
    Decides range bytes checks (x >>= f) := by
  cases x with
  | error e => exact hx
  | ok a =>
    obtain ⟨b, hb⟩ := hf a rfl
    rw [ok_bind, hb]
    exact hx

theorem bind_ok (hx : Decides range bytes checks x) (g : α → β) :
    Decides range bytes checks (x >>= fun a => .ok (g a)) :=
  hx.bind_of_ok fun a _ => ⟨g a, rfl⟩

theorem ensure {p : Prop} [Decidable p] (hp : p ↔ c.Holds range bytes)
    (he : e = c.error range bytes) : Decides range bytes [c] (ensure p e) := by
  by_cases h : p
  · rw [ensure_of_pos h]
    exact List.forall_mem_singleton.2 (hp.1 h)
  · rw [ensure_of_neg h]
    exact firstFailure_cons.2 (.inl ⟨mt hp.2 h, he⟩)

/-- A single check in front of others. -/
theorem ensure_bind {p : Prop} [Decidable p] {f : Unit → Except LoadError β}
    (hp : p ↔ c.Holds range bytes) (he : e = c.error range bytes)
    (hf : p → Decides range bytes later (f ())) :
    Decides range bytes (c :: later) (GrammarArtifact.ensure p e >>= f) :=
  bind (ensure hp he) fun _ h => hf (ensure_eq_ok.1 h)

end Decides

end Format

end GrammarArtifact
