import GrammarArtifact.Proofs.Compilation

/-! Terminals come first and are counted. A description is refused at the first terminal that comes
behind a non-terminal (`Grammar.draft_eq_error`), and for nothing else before its draft is there.
In the artifact of a description that is not refused, the token count is where the terminals end
(`Grammar.terminalAt_iff_lt`): no counter has wrapped, since the names of so many symbols would not
have fitted. -/

namespace GrammarArtifact

namespace Assembly

variable {g : Grammar} {seen symbols : List GrammarSymbol} {s : GrammarSymbol} {e : CompileError}

/-- A symbol is refused when it is a terminal and a non-terminal has been seen. -/
theorem add_after_eq_error : (after g seen).add s = .error e ↔
    (s.kind.isTerminal ∧ ∃ r ∈ seen, r.kind.isTerminal = false) ∧
      e = .terminalAfterRule s.name := by
  have hrules : ¬(after g seen).inRules = false ↔ ∃ r ∈ seen, r.kind.isTerminal = false := by
    simp [after]
  rw [add_after, bind_eq_error, ensure_eq_error, Classical.not_imp, hrules, eq_comm (a := e)]
  refine or_iff_left fun h => ?_
  obtain ⟨_, _, h⟩ := h
  cases h

end Assembly

namespace Grammar

variable {g : Grammar} {symbols : List GrammarSymbol} {s : GrammarSymbol} {e : CompileError}
  {bytes : Bytes}

/-! ## The order of the symbols -/

/-- The first terminal that comes behind a non-terminal. -/
def FirstLate (symbols : List GrammarSymbol) (s : GrammarSymbol) : Prop :=
  ∃ before after, symbols = before ++ s :: after ∧ TerminalsFirst before ∧
    s.kind.isTerminal ∧ ∃ r ∈ before, r.kind.isTerminal = false

theorem foldlM_add_eq_error : symbols.foldlM Assembly.add (.start g) = .error e ↔
    ∃ s, FirstLate symbols s ∧ e = .terminalAfterRule s.name := by
  simp only [foldlM_eq_error, ← Assembly.after_nil, Assembly.foldlM_add_eq_ok, List.nil_append]
  constructor
  · intro ⟨before, s, later, a, hsplit, ⟨⟨hfirst, _⟩, ha⟩, hs⟩
    subst ha
    obtain ⟨⟨hterminal, hrule⟩, he⟩ := Assembly.add_after_eq_error.1 hs
    exact ⟨s, ⟨before, later, hsplit, hfirst, hterminal, hrule⟩, he⟩
  · intro ⟨s, ⟨before, later, hsplit, hfirst, hterminal, hrule⟩, he⟩
    refine ⟨before, s, later, _, hsplit, ⟨⟨hfirst, fun _ h => (nomatch h)⟩, rfl⟩, ?_⟩
    exact Assembly.add_after_eq_error.2 ⟨⟨hterminal, hrule⟩, he⟩

theorem draft_eq_error : g.draft = .error e ↔
    ∃ s, FirstLate g.symbols s ∧ e = .terminalAfterRule s.name := by
  rw [draft, bind_eq_error, foldlM_add_eq_error]
  refine or_iff_left fun h => ?_
  obtain ⟨_, _, h⟩ := h
  cases h

/-- A terminal comes too late exactly when some terminal stands behind some non-terminal. -/
theorem exists_draft_eq_error : (∃ e, g.draft = .error e) ↔ ¬TerminalsFirst g.symbols := by
  cases hd : g.draft with
  | error e =>
    refine iff_of_true ⟨e, rfl⟩ fun hfirst => ?_
    rw [draft_eq_ok.2 ⟨hfirst, rfl⟩] at hd
    nomatch hd
  | ok d =>
    refine iff_of_false (fun ⟨e, he⟩ => (nomatch he)) fun hnot => ?_
    exact hnot (draft_eq_ok.1 hd).1

theorem not_terminalsFirst_iff : ¬TerminalsFirst symbols ↔
    ∃ (i j : Nat) (s t : GrammarSymbol), i < j ∧ symbols[i]? = some s ∧ symbols[j]? = some t ∧
      s.kind.isTerminal = false ∧ t.kind.isTerminal := by
  rw [TerminalsFirst, List.pairwise_iff_getElem]
  constructor
  · intro h
    simp only [Classical.not_forall, Bool.not_eq_true] at h
    obtain ⟨i, j, hi, hj, hij, hterminal, hrule⟩ := h
    exact ⟨i, j, _, _, hij, List.getElem?_eq_getElem hi, List.getElem?_eq_getElem hj, hrule,
      hterminal⟩
  · intro ⟨i, j, s, t, hij, hs, ht, hrule, hterminal⟩ h
    obtain ⟨hi, rfl⟩ := List.getElem?_eq_some_iff.1 hs
    obtain ⟨hj, rfl⟩ := List.getElem?_eq_some_iff.1 ht
    have := h i j hi hj hij hterminal
    rw [hrule] at this
    nomatch this

/-- Compilation fails on the order of the symbols, or on the draft of those that are in order. -/
theorem compile_eq_error : g.compile = .error e ↔
    (∃ s, FirstLate g.symbols s ∧ e = .terminalAfterRule s.name) ∨
      ∃ d fault, g.draft = .ok d ∧ d.encode = .error fault ∧ e = .encode fault := by
  rw [compile, bind_eq_error, draft_eq_error]
  refine or_congr_right ?_
  constructor
  · intro h
    obtain ⟨d, hd, he⟩ := h
    cases henc : d.encode with
    | error fault =>
      rw [henc] at he
      exact ⟨d, fault, hd, henc, (Except.error.inj he).symm⟩
    | ok bytes =>
      rw [henc] at he
      cases he
  · intro h
    obtain ⟨d, fault, hd, henc, he⟩ := h
    refine ⟨d, hd, ?_⟩
    rw [henc, he]
    rfl

/-! ## The count of the terminals -/

/-- Where terminals come first, their number is where they end. -/
theorem TerminalsFirst.isTerminal_iff_lt (h : TerminalsFirst symbols) {i : Nat} :
    (∃ s, symbols[i]? = some s ∧ s.kind.isTerminal) ↔
      i < symbols.countP (·.kind.isTerminal) := by
  induction symbols generalizing i with
  | nil => simp
  | cons t rest ih =>
    obtain ⟨ht, hrest⟩ := List.pairwise_cons.1 h
    cases hterminal : t.kind.isTerminal with
    | true =>
      have hcount : (t :: rest).countP (·.kind.isTerminal) =
          rest.countP (·.kind.isTerminal) + 1 := List.countP_cons_of_pos hterminal
      rw [hcount]
      cases i with
      | zero => simp [hterminal]
      | succ i => simp [ih hrest]
    | false =>
      -- A non-terminal in front leaves no terminals at all.
      have hrules : ∀ s ∈ t :: rest, s.kind.isTerminal = false := by
        refine List.forall_mem_cons.2 ⟨hterminal, fun s hs => Bool.eq_false_iff.2 fun h => ?_⟩
        rw [ht s hs h] at hterminal
        nomatch hterminal
      have hcount : (t :: rest).countP (·.kind.isTerminal) = 0 :=
        List.countP_eq_zero.2 fun s hs => Bool.eq_false_iff.1 (hrules s hs)
      rw [hcount]
      refine iff_of_false (fun ⟨s, hs, hs'⟩ => ?_) (Nat.not_lt_zero i)
      rw [hrules s (List.mem_of_getElem? hs)] at hs'
      nomatch hs'

/-- The symbol at an index of an artifact is the end symbol or a terminal of the description. -/
def TerminalAt (g : Grammar) : Nat → Prop
  | 0 => True
  | i + 1 => ∃ s, g.symbols[i]? = some s ∧ s.kind.isTerminal

theorem terminalAt_iff_lt (h : TerminalsFirst g.symbols) {i : Nat} :
    g.TerminalAt i ↔ i < 1 + g.symbols.countP (·.kind.isTerminal) := by
  cases i with
  | zero => exact iff_of_true trivial (by omega)
  | succ i =>
    rw [TerminalAt, h.isTerminal_iff_lt]
    omega

/-- How an artifact, its header and its draft count and order the symbols of a description. -/
structure Tallied (g : Grammar) (d : Draft) (h : Header) (bytes : Bytes) : Prop where
  symbols : h.counts.symbols.toNat = 1 + g.symbols.length
  tokens : h.counts.tokens.toNat = 1 + g.symbols.countP (·.kind.isTerminal)
  externals : h.counts.externals.toNat = g.symbols.countP (·.kind = .external)
  externals_lt : h.counts.externals < h.counts.tokens
  tokens_le : h.counts.tokens ≤ h.counts.symbols
  /-- The end symbol has no flags, all others have those of their kinds. -/
  stored : d.symbols = ⟨"end", .empty⟩ :: g.symbols.map fun s => ⟨s.name, s.kind.flags⟩
  flags : h.contents? bytes .symbolMetadata = some (0 :: g.symbols.map fun s => s.kind.flags.bits)
  names : h.contents? bytes .symbolNames =
    some (StringTable.encode (Bytes.ofText "end" :: g.symbols.map fun s => Bytes.ofText s.name))
  /-- Names without a terminator can be told apart. -/
  splitNames : (∀ s ∈ g.symbols, StringTable.nul ∉ s.name.toList) →
    (h.contents? bytes .symbolNames).map StringTable.split =
      some (Bytes.ofText "end" :: g.symbols.map fun s => Bytes.ofText s.name)
  terminals : ∀ i, g.TerminalAt i ↔ i < h.counts.tokens.toNat

theorem tallied_of_compile (hcompile : g.compile = .ok bytes) :
    ∃ d h, g.draft = .ok d ∧ Header.decode bytes = .ok h ∧ g.Tallied d h bytes := by
  obtain ⟨hfirst, henc⟩ := compile_eq_ok.1 hcompile
  obtain ⟨h, hdecode, hread⟩ := Draft.decode_of_encode henc
  have htokens := toNat_tokens_plan henc
  have hexternals := toNat_externals_plan henc
  have hle := countP_external_le g.symbols
  have hlength : g.symbols.countP (·.kind.isTerminal) ≤ g.symbols.length := List.countP_le_length
  have hnames : g.plan.symbolNames.map Bytes.ofText =
      Bytes.ofText "end" :: g.symbols.map fun s => Bytes.ofText s.name := by
    rw [symbolNames_plan, List.map_cons, List.map_map]
    rfl
  refine ⟨g.plan, h, draft_eq_ok.2 ⟨hfirst, rfl⟩, hdecode, ?_⟩
  have hsymbols : h.counts.symbols.toNat = 1 + g.symbols.length := by
    rw [hread.symbols, plan, List.length_cons, List.length_map, Nat.add_comm]
  rw [← hread.tokens] at htokens
  rw [← hread.externals] at hexternals
  exact {
    symbols := hsymbols
    tokens := htokens
    externals := hexternals
    externals_lt := by
      rw [UInt32.lt_iff_toNat_lt]
      omega
    tokens_le := by
      rw [UInt32.le_iff_toNat_le]
      omega
    stored := rfl
    flags := by
      rw [hread.symbolMetadata, plan, List.map_cons, List.map_map]
      rfl
    names := by rw [hread.symbolNames, hnames]
    splitNames := fun hnul => by
      rw [← hnames]
      refine hread.splitSymbolNames ?_
      rw [symbolNames_plan]
      exact List.forall_mem_cons.2 ⟨by decide, List.forall_mem_map.2 hnul⟩
    terminals := fun i => by rw [terminalAt_iff_lt hfirst, htokens] }

/-- A description is refused with its first late terminal, in front of every other error, and only
when some terminal is late. What is compiled counts its symbols exactly and has all terminals below
the token count. -/
theorem terminalsCounted (g : Grammar) :
    (∀ e, g.draft = .error e ↔ ∃ s, FirstLate g.symbols s ∧ e = .terminalAfterRule s.name) ∧
    ((∃ e, g.draft = .error e) ↔ ∃ (i j : Nat) (s t : GrammarSymbol), i < j ∧
      g.symbols[i]? = some s ∧ g.symbols[j]? = some t ∧
        s.kind.isTerminal = false ∧ t.kind.isTerminal) ∧
    (∀ e, g.compile = .error e ↔
      (∃ s, FirstLate g.symbols s ∧ e = .terminalAfterRule s.name) ∨
        ∃ d fault, g.draft = .ok d ∧ d.encode = .error fault ∧ e = .encode fault) ∧
    ∀ bytes, g.compile = .ok bytes →
      ∃ d h, g.draft = .ok d ∧ Header.decode bytes = .ok h ∧ g.Tallied d h bytes :=
  ⟨fun _ => draft_eq_error, exists_draft_eq_error.trans not_terminalsFirst_iff,
    fun _ => compile_eq_error, fun _ => tallied_of_compile⟩

/-- A description in which two terminals come behind rules, the first of them an external one. -/
def misordered : Grammar where
  name := "x"
  states := ⟨70000, 1⟩
  symbols := [⟨"id", .token⟩, ⟨"file", .rule⟩, ⟨"_item", .hidden⟩, ⟨"indent", .external⟩,
    ⟨"fn", .literal⟩]

/-- A description with every kind of symbol. -/
def mixed : Grammar where
  name := "x"
  states := ⟨2, 1⟩
  symbols := [⟨"fn", .literal⟩, ⟨"indent", .external⟩, ⟨"id", .token⟩, ⟨"_item", .hidden⟩,
    ⟨"_expression", .supertype⟩, ⟨"end", .rule⟩]

/-- The first description has too many states as well, which is not what is reported. In the second
one a rule shares its name with the end symbol and is no terminal for it. -/
theorem terminalsCounted_misordered_mixed :
    misordered.compile = .error (.terminalAfterRule "indent") ∧
      ∃ bytes, mixed.compile = .ok bytes ∧ ∃ d h, mixed.draft = .ok d ∧
        Header.decode bytes = .ok h ∧ mixed.Tallied d h bytes := by
  constructor
  · refine ((terminalsCounted misordered).2.2.1 _).2 (.inl ⟨⟨"indent", .external⟩, ?_, rfl⟩)
    refine ⟨[⟨"id", .token⟩, ⟨"file", .rule⟩, ⟨"_item", .hidden⟩], [⟨"fn", .literal⟩], rfl, ?_⟩
    exact ⟨by simp [TerminalsFirst, SymbolKind.isTerminal], rfl, ⟨"file", .rule⟩, by simp, rfl⟩
  · exact ⟨_, rfl, (terminalsCounted mixed).2.2.2 _ rfl⟩

end Grammar

end GrammarArtifact
