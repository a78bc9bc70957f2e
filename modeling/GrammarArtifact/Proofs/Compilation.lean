import GrammarArtifact.Grammar.Compile
import GrammarArtifact.Proofs.Defects

/-! What compilation makes of a description. Going through the symbols keeps an assembly in step
with the symbols seen so far (`Assembly.add_after`), so the draft of a description whose terminals
come first is `Grammar.plan`. Its token counts are right by construction; the state counts and the
names are taken as they are, which is why not every artifact that is compiled can be loaded. -/

namespace GrammarArtifact

namespace Grammar

variable {g : Grammar}

/-- No terminal follows a non-terminal. -/
def TerminalsFirst (symbols : List GrammarSymbol) : Prop :=
  symbols.Pairwise fun s t => t.kind.isTerminal → s.kind.isTerminal

/-- The draft of a description whose terminals come first. -/
def plan (g : Grammar) : Draft where
  name := g.name
  version := g.version
  symbols := .endOfInput :: g.symbols.map GrammarSymbol.stored
  fields := g.fields
  tokens := UInt32.ofNat (1 + g.symbols.countP (·.kind.isTerminal))
  externals := UInt32.ofNat (g.symbols.countP (·.kind = .external))
  states := g.states.total
  largeStates := g.states.large

end Grammar

/-! ## Symbols one by one -/

namespace Assembly

variable {g : Grammar} {a : Assembly} {seen symbols : List GrammarSymbol} {s : GrammarSymbol}

/-- The assembly after some of the symbols. -/
def after (g : Grammar) (seen : List GrammarSymbol) : Assembly where
  draft :=
    { name := g.name
      version := g.version
      symbols := .endOfInput :: seen.map GrammarSymbol.stored }
  tokens := UInt32.ofNat (1 + seen.countP (·.kind.isTerminal))
  externals := UInt32.ofNat (seen.countP (·.kind = .external))
  inRules := seen.any (!·.kind.isTerminal)

theorem after_nil (g : Grammar) : after g [] = start g := rfl

theorem inRules_after : (after g seen).inRules = false ↔ ∀ t ∈ seen, t.kind.isTerminal := by
  simp [after]

theorem ofNat_countP_append (p : GrammarSymbol → Bool) (first : Nat) :
    UInt32.ofNat (first + (seen ++ [s]).countP p) =
      if p s then UInt32.ofNat (first + seen.countP p) + 1 else
        UInt32.ofNat (first + seen.countP p) := by
  rw [List.countP_append, List.countP_singleton]
  split
  · rw [← Nat.add_assoc, UInt32.ofNat_add]
    rfl
  · rfl

/-- What one more symbol changes. -/
theorem after_append (g : Grammar) (seen : List GrammarSymbol) (s : GrammarSymbol) :
    after g (seen ++ [s]) =
      { draft := (after g seen).draft.addSymbol s.stored
        tokens := if s.kind.isTerminal then (after g seen).tokens + 1 else (after g seen).tokens
        externals :=
          if s.kind = .external then (after g seen).externals + 1 else (after g seen).externals
        inRules := (after g seen).inRules || !s.kind.isTerminal } := by
  have htokens := @ofNat_countP_append seen s (·.kind.isTerminal) 1
  have hexternals := @ofNat_countP_append seen s (·.kind = .external) 0
  simp only [Nat.zero_add, decide_eq_true_eq] at hexternals
  simp only [after, htokens, hexternals, Draft.addSymbol, List.map_append, List.map_cons,
    List.map_nil, List.cons_append, List.any_append, List.any_cons, List.any_nil, Bool.or_false]

/-- A symbol is taken unless it is a terminal and a non-terminal has been seen. -/
theorem add_after (g : Grammar) (seen : List GrammarSymbol) (s : GrammarSymbol) :
    (after g seen).add s =
      ensure (s.kind.isTerminal → (after g seen).inRules = false) (.terminalAfterRule s.name) >>=
        fun _ => .ok (after g (seen ++ [s])) := by
  rw [after_append, add]
  split
  · next hterminal =>
    have hcongr : (s.kind.isTerminal → (after g seen).inRules = false) ↔
        (after g seen).inRules = false := ⟨fun h => h hterminal, fun h _ => h⟩
    rw [ensure_congr hcongr]
    by_cases hrules : (after g seen).inRules = false
    · rw [ensure_of_pos hrules, hterminal, Bool.not_true, Bool.or_false]
      rfl
    · rw [ensure_of_neg hrules]
      rfl
  · next hrule =>
    have hexternal : s.kind ≠ .external := fun h => hrule (by rw [h]; rfl)
    rw [ensure_of_pos fun h => absurd h hrule, ok_bind, if_neg hexternal,
      Bool.eq_false_iff.2 hrule, Bool.not_false, Bool.or_true]
    rfl

/-- Going through all symbols succeeds when no terminal comes too late. -/
theorem foldlM_add_eq_ok : symbols.foldlM add (after g seen) = .ok a ↔
    (Grammar.TerminalsFirst symbols ∧
      ∀ s ∈ seen, ∀ t ∈ symbols, t.kind.isTerminal → s.kind.isTerminal) ∧
    a = after g (seen ++ symbols) := by
  induction symbols generalizing seen with
  | nil =>
    rw [List.append_nil]
    exact ⟨fun h => ⟨⟨.nil, fun _ _ _ ht => (nomatch ht)⟩, (Except.ok.inj h).symm⟩,
      fun h => congrArg _ h.2.symm⟩
  | cons s rest ih =>
    rw [List.foldlM_cons, add_after, bind_assoc]
    simp only [ok_bind, bind_eq_ok, ensure_eq_ok, exists_and_left, exists_const, inRules_after, ih,
      List.append_assoc, List.cons_append, List.nil_append]
    constructor
    · intro ⟨hs, ⟨hrest, hbefore⟩, ha⟩
      obtain ⟨hseen, hlast⟩ := List.forall_mem_append.1 hbefore
      refine ⟨⟨List.pairwise_cons.2 ⟨List.forall_mem_singleton.1 hlast, hrest⟩, fun t ht => ?_⟩, ha⟩
      exact List.forall_mem_cons.2 ⟨fun h => hs h t ht, hseen t ht⟩
    · intro ⟨⟨hfirst, hseen⟩, ha⟩
      obtain ⟨hs, hrest⟩ := List.pairwise_cons.1 hfirst
      refine ⟨fun h t ht => hseen t ht s List.mem_cons_self h, ⟨hrest, ?_⟩, ha⟩
      refine List.forall_mem_append.2 ⟨fun t ht u hu => ?_, List.forall_mem_singleton.2 hs⟩
      exact hseen t ht u (List.mem_cons_of_mem _ hu)

end Assembly

/-! ## The whole description -/

theorem Draft.foldl_addField (d : Draft) (fields : List String) :
    fields.foldl addField d = { d with fields := d.fields ++ fields } := by
  induction fields generalizing d with
  | nil => rw [List.append_nil]; rfl
  | cons f rest ih =>
    rw [List.foldl_cons, ih, addField, List.append_assoc]
    rfl

namespace Grammar

variable {g : Grammar} {d : Draft} {bytes : Bytes} {loader : Loader} {artifact : Region}

theorem draft_eq_ok : g.draft = .ok d ↔ TerminalsFirst g.symbols ∧ d = g.plan := by
  simp only [draft, ← Assembly.after_nil, bind_eq_ok, Assembly.foldlM_add_eq_ok, pure_eq_ok,
    Draft.foldl_addField, List.nil_append]
  constructor
  · intro ⟨_, ⟨⟨hfirst, _⟩, ha⟩, hd⟩
    subst ha hd
    exact ⟨hfirst, rfl⟩
  · intro ⟨hfirst, hd⟩
    subst hd
    exact ⟨_, ⟨⟨hfirst, fun _ h => (nomatch h)⟩, rfl⟩, rfl⟩

theorem compile_eq_ok : g.compile = .ok bytes ↔
    TerminalsFirst g.symbols ∧ g.plan.encode = .ok bytes := by
  simp only [compile, bind_eq_ok, draft_eq_ok, mapError_eq_ok]
  constructor
  · intro ⟨_, ⟨hfirst, hd⟩, henc⟩
    exact ⟨hfirst, hd ▸ henc⟩
  · intro ⟨hfirst, henc⟩
    exact ⟨_, ⟨hfirst, rfl⟩, henc⟩

/-- The part of a description that compilation takes as it is and a loader insists on. -/
structure Loadable (g : Grammar) : Prop where
  largeStates : g.states.large ≤ g.states.total
  name : g.name ≠ ""
  symbolNames : ∀ s ∈ g.symbols, StringTable.nul ∉ s.name.toList
  fieldNames : ∀ f ∈ g.fields, StringTable.nul ∉ f.toList

theorem countP_external_le (symbols : List GrammarSymbol) :
    symbols.countP (·.kind = .external) ≤ symbols.countP (·.kind.isTerminal) := by
  refine List.countP_mono_left fun s _ h => ?_
  rw [of_decide_eq_true h]
  rfl

theorem symbolNames_plan (g : Grammar) :
    g.plan.symbolNames = "end" :: g.symbols.map (·.name) := by
  rw [Draft.symbolNames, plan, List.map_cons, List.map_map]
  rfl

/-- An artifact has a name for every symbol, so the symbols fit into half a word. -/
theorem two_mul_length_le (henc : g.plan.encode = .ok bytes) :
    2 * (g.symbols.length + 1) ≤ Layout.maxWord := by
  obtain ⟨h, hh, -⟩ := Draft.encode_eq_ok.1 henc
  have hhalved := (Draft.stored_of_header hh).symbolsHalved
  rwa [plan, List.length_cons, List.length_map] at hhalved

theorem toNat_tokens_plan (henc : g.plan.encode = .ok bytes) :
    g.plan.tokens.toNat = 1 + g.symbols.countP (·.kind.isTerminal) := by
  have hlength := two_mul_length_le henc
  have hterminals : g.symbols.countP (·.kind.isTerminal) ≤ g.symbols.length := List.countP_le_length
  exact Draft.toNat_ofNat_of_le_maxWord (by omega)

theorem toNat_externals_plan (henc : g.plan.encode = .ok bytes) :
    g.plan.externals.toNat = g.symbols.countP (·.kind = .external) := by
  have hlength := two_mul_length_le henc
  have hexternals : g.symbols.countP (·.kind = .external) ≤ g.symbols.length :=
    List.countP_le_length
  exact Draft.toNat_ofNat_of_le_maxWord (by omega)

/-- The token counts are right by construction. -/
theorem consistent_plan (henc : g.plan.encode = .ok bytes) : g.plan.Consistent ↔ g.Loadable := by
  have hlength : g.plan.symbols.length = g.symbols.length + 1 := by
    rw [plan, List.length_cons, List.length_map]
  have hnames := g.symbolNames_plan
  have hterminals : g.symbols.countP (·.kind.isTerminal) ≤ g.symbols.length := List.countP_le_length
  have hexternals := countP_external_le g.symbols
  have htokens := toNat_tokens_plan henc
  have hexternal := toNat_externals_plan henc
  constructor
  · rintro ⟨-, -, hlarge, hname, hsymbols, hfields⟩
    refine ⟨hlarge, hname, fun s hs => ?_, hfields⟩
    exact hsymbols s.name (hnames ▸ List.mem_cons_of_mem _ (List.mem_map_of_mem hs))
  · rintro ⟨hlarge, hname, hsymbols, hfields⟩
    refine ⟨by omega, ?_, hlarge, hname, ?_, hfields⟩
    · rw [UInt32.le_iff_toNat_le, htokens, hexternal]
      omega
    · rw [hnames]
      exact List.forall_mem_cons.2 ⟨by decide, List.forall_mem_map.2 hsymbols⟩

/-- A loader of its version accepts the artifact of a description exactly when no more states are
large than there are, the name is not empty and no name holds a terminator. -/
theorem load_compile (loader : Loader) (hcompile : g.compile = .ok artifact.bytes)
    (hmem : g.version ∈ loader.versions) :
    (∃ l, loader.load (some artifact) = .ok l) ↔ g.Loadable := by
  have henc := (compile_eq_ok.1 hcompile).2
  rw [Draft.exists_load_eq_ok henc hmem]
  exact consistent_plan henc

/-- A description with a token, of which a loader accepts the artifact. -/
def fitting : Grammar where
  name := "x"
  states := ⟨2, 1⟩
  symbols := [⟨"id", .token⟩]

theorem load_compile_fitting : ∃ artifact : Region, fitting.compile = .ok artifact.bytes ∧
    fitting.version ∈ VersionRange.full ∧ ∃ l, (⟨.full⟩ : Loader).load (some artifact) = .ok l :=
  ⟨.whole 0 _, rfl, VersionRange.mem_full, (@load_compile fitting _ ⟨.full⟩ rfl (by decide)).2
    ⟨by decide, by decide, by decide, fun _ h => (nomatch h)⟩⟩

/-- A description in which more states are large than there are. -/
def uneven : Grammar where
  name := "x"
  states := ⟨1, 2⟩

/-- Compilation does not compare the state counts. -/
theorem compile_uneven : ∃ artifact : Region, uneven.compile = .ok artifact.bytes ∧
    uneven.version ∈ VersionRange.full ∧ (⟨.full⟩ : Loader).load (some artifact) =
      .error (.defective (.inconsistentCounts .largeStates 2 .states 1)) :=
  ⟨.whole 0 _, rfl, VersionRange.mem_full, rfl⟩

end Grammar

end GrammarArtifact
