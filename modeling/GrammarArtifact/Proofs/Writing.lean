import GrammarArtifact.Proofs.Documents
import Mathlib.Algebra.Group.Nat.Defs

/-! Texts for documents. `Document.write` sets out a document of strings, integers, arrays and
tables with one entry a line; keys and strings are quoted, every character of them escaped, and
integers are hexadecimal. Reading such a text gives the document back (`Document.ofText?_write`), so
every document of this kind is the document of a text. The readers are followed step by step with
`Reads`. `Reader.reads_collect` is the induction over what a loop collects, and `Reader.reads_value`
the one over values. -/

namespace GrammarArtifact

namespace Toml

/-! ## Writing -/

def hexDigits : (width : Nat) → Nat → List Char
  | 0, _ => []
  | width + 1, n => hexDigits width (n / 16) ++ [Nat.digitChar (n % 16)]

def escaped (c : Char) : List Char := '\\' :: 'U' :: hexDigits 8 c.toNat

/-- A string in quotes, with its characters by their code points. -/
def quoted (s : String) : List Char := '"' :: (s.toList.flatMap escaped ++ ['"'])

mutual

/-- A value that is plain, as text. -/
def Value.write : Value → List Char
  | .string s => quoted s
  | .integer n => '0' :: 'x' :: hexDigits 16 n.toNat
  | .array items => '[' :: (writeItems items ++ [']'])
  | .table entries => '\x7b' :: (writeEntries entries ++ ['\x7d'])
  | .float _ | .unreadable _ | .boolean _ | .moment _ => []

def writeItems : List Value → List Char
  | [] => []
  | v :: rest => v.write ++ ',' :: writeItems rest

def writeEntries : List (String × Value) → List Char
  | [] => []
  | (key, v) :: rest => quoted key ++ '=' :: (v.write ++ ',' :: writeEntries rest)

end

def writeEntry (e : String × Value) : List Char := quoted e.1 ++ '=' :: e.2.write

def Document.write (document : Document) : String :=
  String.ofList (document.flatMap fun e => writeEntry e ++ ['\n'])

/-- Strings, integers that are not negative, and arrays and tables of plain values, at most `depth`
of them within one another. -/
inductive Value.Plain : (depth : Nat) → Value → Prop
  | string {depth : Nat} (s : String) : Plain depth (.string s)
  | integer {depth n : Nat} (h : n < 2 ^ 63) : Plain depth (.integer n)
  | array {depth : Nat} {items : List Value} (each : ∀ v ∈ items, Plain depth v) :
    Plain (depth + 1) (.array items)
  | table {depth : Nat} {entries : List (String × Value)} (keys : Ascending entries)
    (each : ∀ e ∈ entries, Plain depth e.2) : Plain (depth + 1) (.table entries)

theorem Value.Plain.word (n : UInt32) {depth : Nat} : Plain depth (.integer n.toNat) :=
  .integer (Nat.lt_trans n.toNat_lt (by decide))

/-! ## Digits -/

theorem digitValue_digitChar {k : Nat} (h : k < 16) : Reader.digitValue (Nat.digitChar k) = k := by
  have all : ∀ k < 16, Reader.digitValue (Nat.digitChar k) = k := by decide
  exact all k h

theorem isHexDigit_digitChar {k : Nat} (h : k < 16) : Reader.isHexDigit (Nat.digitChar k) := by
  have all : ∀ k < 16, Reader.isHexDigit (Nat.digitChar k) := by decide
  exact all k h

theorem length_hexDigits (width n : Nat) : (hexDigits width n).length = width := by
  induction width generalizing n with
  | zero => rfl
  | succ width ih => rw [hexDigits, List.length_append, ih]; rfl

theorem isHexDigit_of_mem_hexDigits {width n : Nat} {c : Char} (h : c ∈ hexDigits width n) :
    Reader.isHexDigit c := by
  induction width generalizing n with
  | zero => nomatch h
  | succ width ih =>
    rcases List.mem_append.1 h with h | h
    · exact ih h
    · exact List.mem_singleton.1 h ▸ isHexDigit_digitChar (Nat.mod_lt _ (by decide))

theorem ofDigits_hexDigits (width n : Nat) :
    Reader.ofDigits 16 (hexDigits width n) = n % 16 ^ width := by
  induction width generalizing n with
  | zero => rw [Nat.pow_zero, Nat.mod_one]; rfl
  | succ width ih =>
    rw [hexDigits, Reader.ofDigits, List.foldl_append, ← Reader.ofDigits, ih]
    rw [List.foldl_cons, List.foldl_nil, digitValue_digitChar (Nat.mod_lt _ (by decide))]
    rw [Nat.pow_succ', Nat.mod_mul, Nat.add_comm, Nat.mul_comm]

namespace Reader

variable {α β γ σ : Type} {r : Reader α} {cs mid rest : List Char} {a : α} {b : β}

/-! ## Runs of readers -/

/-- The reader takes `a` from the front of the text and leaves the rest. -/
def Reads (r : Reader α) (cs : List Char) (a : α) (rest : List Char) : Prop := r cs = some (a, rest)

theorem Reads.pure : Reads (pure a) cs a cs := rfl

theorem Reads.bind {f : α → Reader β} (h : Reads r cs a mid) (hf : Reads (f a) mid b rest) :
    Reads (r >>= f) cs b rest :=
  Option.bind_eq_some_iff.2 ⟨(a, mid), h, hf⟩

theorem Reads.loop_inr {step : σ → Reader (σ ⊕ α)} {state : σ}
    (h : Reads (step state) cs (.inr a) rest) : Reads (loop step state) cs a rest := by
  rw [Reads, loop, show step state cs = some (.inr a, rest) from h]

theorem Reads.loop_inl {step : σ → Reader (σ ⊕ α)} {state next : σ}
    (h : Reads (step state) cs (.inl next) mid) (shorter : mid.length < cs.length)
    (later : Reads (loop step next) mid a rest) : Reads (loop step state) cs a rest := by
  rw [Reads, loop, show step state cs = some (.inl next, mid) from h]
  exact (if_pos shorter).trans later

theorem reads_peek {c : Char} : Reads peek (c :: cs) (some c) (c :: cs) := rfl

theorem reads_accept {c : Char} : Reads (accept c) (c :: cs) true cs := by
  rw [Reads, accept, if_pos rfl]

theorem reads_next {c : Char} : Reads next (c :: cs) c cs := rfl

theorem reads_expect {c : Char} : Reads (expect c) (c :: cs) () cs :=
  reads_accept.bind rfl

theorem reads_accept_ne {c d : Char} (h : c ≠ d) : Reads (accept c) (d :: cs) false (d :: cs) := by
  rw [Reads, accept, if_neg h]

theorem reads_acceptAll_of_not_prefix {word : List Char} (h : word.isPrefixOf cs = false) :
    Reads (acceptAll word) cs false cs := by
  rw [Reads, acceptAll, h]
  rfl

theorem reads_acceptAll_ne {c d : Char} {word : List Char} (h : c ≠ d) :
    Reads (acceptAll (c :: word)) (d :: cs) false (d :: cs) := by
  refine reads_acceptAll_of_not_prefix ?_
  rw [List.isPrefixOf, beq_eq_false_iff_ne.2 h, Bool.false_and]

theorem reads_takeWhile_nil {p : Char → Bool} (ends : ∀ c ∈ rest.head?, p c = false) :
    Reads (takeWhile p) rest [] rest := by
  cases rest with
  | nil => rfl
  | cons c rest => simp [Reads, takeWhile, ends c rfl]

theorem reads_takeWhile {p : Char → Bool} (all : ∀ c ∈ cs, p c)
    (ends : ∀ c ∈ rest.head?, p c = false) : Reads (takeWhile p) (cs ++ rest) cs rest := by
  obtain ⟨taken, dropped⟩ := Prod.mk.inj (Option.some.inj (reads_takeWhile_nil ends))
  rw [Reads, takeWhile, List.takeWhile_append_of_pos all, List.dropWhile_append_of_pos all, taken,
    dropped, List.append_nil]

/-- No blank, newline or comment comes first. -/
def Solid (cs : List Char) : Prop := ∀ c ∈ cs.head?, c ∉ [' ', '\t', '\n', '\r', '#']

theorem solid_nil : Solid [] := by simp [Solid]

theorem reads_blanks (h : ∀ c ∈ cs.head?, isBlank c = false) : Reads blanks cs () cs :=
  (reads_takeWhile_nil h).bind .pure

theorem reads_comment (h : ∀ c ∈ cs.head?, c ≠ '#') : Reads comment cs () cs := by
  cases cs with
  | nil => rfl
  | cons c cs => exact (reads_accept_ne (h c rfl).symm).bind .pure

theorem reads_newline : Reads newline ('\n' :: cs) true cs := reads_accept.bind .pure

theorem Solid.not_blank (h : Solid cs) : ∀ c ∈ cs.head?, isBlank c = false := by
  intro c hc
  have := h c hc
  simp only [List.mem_cons, not_or] at this
  simp [isBlank, this]

theorem Solid.reads_newline (h : Solid cs) : Reads newline cs false cs := by
  cases cs with
  | nil => rfl
  | cons c cs =>
    have := h c rfl
    simp only [List.mem_cons, not_or] at this
    exact (reads_accept_ne (Ne.symm this.2.2.1)).bind (reads_acceptAll_ne (Ne.symm this.2.2.2.1))

theorem Solid.reads_trivia (h : Solid cs) : Reads trivia cs () cs := by
  refine .loop_inr ((reads_blanks h.not_blank).bind ((reads_comment ?_).bind
    (h.reads_newline.bind .pure)))
  intro c hc same
  exact h c hc (by simp [same])

/-! ## Quoted texts -/

theorem reads_codePoint (c : Char) :
    Reads (codePoint 8) (hexDigits 8 c.toNat ++ rest) c rest := by
  have length := length_hexDigits 8 c.toNat
  have digits : (hexDigits 8 c.toNat).all isHexDigit :=
    List.all_eq_true.2 fun _ => isHexDigit_of_mem_hexDigits
  have small : c.toNat < 16 ^ 8 := c.val.toNat_lt
  have code : ofDigits 16 (hexDigits 8 c.toNat) = c.toNat := by
    rw [ofDigits_hexDigits, Nat.mod_eq_of_lt small]
  have valid : c.toNat.isValidChar := c.valid
  rw [Reads, codePoint, List.take_left' length, List.drop_left' length]
  simp [guard, length, digits, code, valid]

theorem reads_escape (c : Char) : Reads escape ('U' :: (hexDigits 8 c.toNat ++ rest)) c rest :=
  reads_next.bind (reads_codePoint c)

/-- The step that `basicLine` repeats. -/
def basicStep (text : String) : Reader (String ⊕ String) := do
  let run ← takeWhile isBasicChar
  let text := text ++ String.ofList run
  match ← next with
  | '"' => return .inr text
  | '\\' =>
    let c ← escape
    return .inl (text.push c)
  | _ => fail

theorem reads_basicSteps (chars : List Char) (text : String) (rest : List Char) :
    Reads (loop basicStep text) (chars.flatMap escaped ++ '"' :: rest)
      (text ++ String.ofList chars) rest := by
  induction chars generalizing text with
  | nil =>
    have run : Reads (takeWhile isBasicChar) ('"' :: rest) [] ('"' :: rest) :=
      reads_takeWhile_nil (by simp [isBasicChar])
    exact .loop_inr (run.bind rfl)
  | cons c chars ih =>
    have run (later : List Char) :
        Reads (takeWhile isBasicChar) (escaped c ++ later) [] (escaped c ++ later) :=
      reads_takeWhile_nil (by simp [isBasicChar, escaped])
    have step (later : List Char) :
        Reads (basicStep text) (escaped c ++ later) (.inl (text.push c)) later := by
      have backslash :
          Reads next (escaped c ++ later) '\\' ('U' :: (hexDigits 8 c.toNat ++ later)) :=
        reads_next
      refine (run later).bind (backslash.bind ((reads_escape c).bind ?_))
      rw [String.ofList_nil, String.append_empty]
      exact .pure
    have same : text ++ String.ofList (c :: chars) = text.push c ++ String.ofList chars := by
      simp [← String.toList_inj]
    rw [List.flatMap_cons, List.append_assoc, same]
    exact .loop_inl (step _) (by simp [escaped]; omega) (ih _)

theorem quoted_append (s : String) (rest : List Char) :
    quoted s ++ rest = '"' :: (s.toList.flatMap escaped ++ '"' :: rest) := by
  simp [quoted]

theorem reads_basicLine (s : String) :
    Reads basicLine (s.toList.flatMap escaped ++ '"' :: rest) s rest := by
  have h := reads_basicSteps s.toList "" rest
  rw [String.ofList_toList, String.empty_append] at h
  exact h

theorem reads_simpleKey (s : String) : Reads simpleKey (quoted s ++ rest) s rest := by
  rw [quoted_append]
  exact reads_peek.bind (reads_expect.bind (reads_basicLine s))

theorem reads_dottedKey (s : String) :
    Reads dottedKey (quoted s ++ '=' :: rest) ([], s) ('=' :: rest) := by
  have key : Reads simpleKey (quoted s ++ '=' :: rest) s ('=' :: rest) := reads_simpleKey s
  have equals : Reads blanks ('=' :: rest) () ('=' :: rest) := reads_blanks (by simp [isBlank])
  have last : Reads (accept '.') ('=' :: rest) false ('=' :: rest) := reads_accept_ne (by decide)
  refine (reads_blanks ?_).bind (key.bind (equals.bind (.loop_inr (last.bind ?_))))
  · simp [quoted, isBlank]
  · rfl

/-- A text in quotes is not the beginning of one on several lines, unless a quote follows it. -/
theorem reads_basicText (s : String) (ends : ∀ c ∈ rest.head?, c ≠ '"') :
    Reads basicText (quoted s ++ rest) s rest := by
  have single : Reads (acceptAll ['"', '"', '"']) (quoted s ++ rest) false (quoted s ++ rest) := by
    refine reads_acceptAll_of_not_prefix ?_
    rw [quoted_append]
    cases s.toList with
    | nil =>
      cases rest with
      | nil => rfl
      | cons c rest => simp [List.isPrefixOf, Ne.symm (ends c rfl)]
    | cons c chars => simp [List.isPrefixOf, escaped]
  refine single.bind ?_
  rw [quoted_append]
  exact reads_expect.bind (reads_basicLine s)

/-! ## Numbers -/

theorem isWordChar_of_isHexDigit {c : Char} (h : isHexDigit c) : isWordChar c := by
  have ending : [' ', '\t', '\r', '\n', '#', '=', ',', '[', ']', '\x7b', '\x7d'].all
      (!isHexDigit ·) := by decide
  refine decide_eq_true fun hc => ?_
  have := List.all_eq_true.1 ending c hc
  rw [h] at this
  nomatch this

theorem reads_word (all : ∀ c ∈ cs, isWordChar c)
    (ends : ∀ c ∈ rest.head?, isWordChar c = false ∧ isBlank c = false) :
    Reads word (cs ++ rest) cs rest := by
  have run := reads_takeWhile all fun c hc => (ends c hc).1
  have gap : Reads gapInWord rest [] rest := by
    cases rest with
    | nil => rfl
    | cons c rest =>
      have ⟨foreign, solid⟩ := ends c rfl
      simp [Reads, gapInWord, resumesWord, foreign, solid]
  exact .loop_inr (run.bind (gap.bind rfl))

theorem field?_eq_none {width : Nat} : Moment.field? (width + 2) ('0' :: 'x' :: cs) = none := by
  simp [Moment.field?, guard]

theorem isMoment_eq_false : Moment.isMoment ('0' :: 'x' :: cs) = false := by
  simp [Moment.isMoment, Moment.date?, Moment.time?, Moment.clock?, field?_eq_none]

theorem separates_of_all {isDigit : Char → Bool} {afterDigit : Bool}
    (all : ∀ c ∈ cs, isDigit c ∧ c ≠ '_') : Number.separates isDigit afterDigit cs := by
  induction cs generalizing afterDigit with
  | nil => rw [Number.separates]
  | cons c rest ih =>
    obtain ⟨⟨-, plain⟩, others⟩ := List.forall_mem_cons.1 all
    rw [Number.separates]
    · exact ih others
    · exact plain

theorem ne_underscore_of_mem_hexDigits {width n : Nat} {c : Char} (h : c ∈ hexDigits width n) :
    c ≠ '_' := by
  rintro rfl
  nomatch isHexDigit_of_mem_hexDigits h

theorem ungroup_hexDigits (width n : Nat) :
    Number.ungroup (hexDigits width n) = hexDigits width n :=
  List.filter_eq_self.2 fun _ h => decide_eq_true (ne_underscore_of_mem_hexDigits h)

theorem isGrouped_hexDigits (width n : Nat) :
    Number.isGrouped isHexDigit (hexDigits width n) :=
  separates_of_all fun _ h => ⟨isHexDigit_of_mem_hexDigits h, ne_underscore_of_mem_hexDigits h⟩

theorem marked?_hexDigits {n : Nat} (h : n < 2 ^ 63) :
    Number.marked? 16 isHexDigit ('0' :: 'x' :: hexDigits 16 n) = some (.integer n) := by
  have digits : (hexDigits 16 n).all isHexDigit :=
    List.all_eq_true.2 fun _ => isHexDigit_of_mem_hexDigits
  have nonempty : hexDigits 16 n ≠ [] :=
    List.ne_nil_of_length_pos (by rw [length_hexDigits]; decide)
  have number : ofDigits 16 (hexDigits 16 n) = n := by
    rw [ofDigits_hexDigits, Nat.mod_eq_of_lt (by omega)]
  have bounds : Number.smallest ≤ (n : Int) ∧ (n : Int) ≤ Number.largest := by
    unfold Number.smallest Number.largest
    omega
  simp [Number.marked?, Number.integer, guard, ungroup_hexDigits, isGrouped_hexDigits, digits,
    nonempty, number, bounds]

theorem valueOfWord_hexDigits {n : Nat} (h : n < 2 ^ 63) :
    valueOfWord ('0' :: 'x' :: hexDigits 16 n) = some (.integer n) := by
  have number : Value.ofNumber? ('0' :: 'x' :: hexDigits 16 n) = some (.integer n) :=
    marked?_hexDigits h
  simp [valueOfWord, isMoment_eq_false, number]

/-! ## Values -/

/-- What follows a value in a text that was written. -/
def Ends (rest : List Char) : Prop := ∃ c later, rest = c :: later ∧ (c = ',' ∨ c = '\n')

theorem Ends.head (h : Ends rest) : ∀ c ∈ rest.head?, c = ',' ∨ c = '\n' := by
  obtain ⟨c, later, rfl, hc⟩ := h
  intro d hd
  exact Option.some.inj hd ▸ hc

theorem reads_string (s : String) (ends : Ends rest) :
    Reads scalar (quoted s ++ rest) (.string s) rest := by
  have text : Reads basicText (quoted s ++ rest) s rest := by
    refine reads_basicText s fun c hc => ?_
    rcases ends.head c hc with rfl | rfl <;> decide
  rw [quoted_append] at text ⊢
  exact reads_peek.bind (text.bind .pure)

theorem reads_integer {n : Nat} (h : n < 2 ^ 63) (ends : Ends rest) :
    Reads scalar ('0' :: 'x' :: hexDigits 16 n ++ rest) (.integer n) rest := by
  have all : ∀ c ∈ '0' :: 'x' :: hexDigits 16 n, isWordChar c := by
    simp only [List.forall_mem_cons]
    exact ⟨by decide, by decide, fun c hc =>
      isWordChar_of_isHexDigit (isHexDigit_of_mem_hexDigits hc)⟩
  have ends : ∀ c ∈ rest.head?, isWordChar c = false ∧ isBlank c = false := by
    intro c hc
    rcases ends.head c hc with rfl | rfl <;> decide
  refine reads_peek.bind ((reads_word all ends).bind ?_)
  rw [Reads, valueOfWord_hexDigits h]
  rfl

/-- The beginning of a value or a key in a text that was written. -/
def Opens (cs : List Char) : Prop := ∃ c later, cs = c :: later ∧ c ∈ ['"', '0', '[', '\x7b']

theorem opens_quoted (s : String) : Opens (quoted s) := ⟨_, _, rfl, by decide⟩

theorem Opens.append (h : Opens cs) (later : List Char) : Opens (cs ++ later) := by
  obtain ⟨c, rest, rfl, hc⟩ := h
  exact ⟨c, rest ++ later, rfl, hc⟩

theorem Opens.solid (h : Opens cs) : Solid cs := by
  obtain ⟨c, later, rfl, hc⟩ := h
  intro d hd
  obtain rfl := Option.some.inj hd
  simp only [List.mem_cons, List.not_mem_nil, or_false] at hc
  rcases hc with rfl | rfl | rfl | rfl <;> decide

theorem Opens.reads_accept {c : Char} (h : Opens cs) (other : c ∉ ['"', '0', '[', '\x7b']) :
    Reads (accept c) cs false cs := by
  obtain ⟨d, later, rfl, hd⟩ := h
  exact reads_accept_ne fun same => other (same ▸ hd)

theorem solid_flatMap {write : α → List Char} {found : List α} {last : List Char}
    (opens : ∀ a ∈ found, Opens (write a)) (solid : Solid last) :
    Solid (found.flatMap write ++ last) := by
  cases found with
  | nil => exact solid
  | cons a found =>
    rw [List.flatMap_cons, List.append_assoc]
    exact ((opens a List.mem_cons_self).append _).solid

/-- A loop that collects what was written one after the other, up to a text at which it stops. -/
theorem reads_collect {step : List α → Reader (List α ⊕ List α)} {write : γ → List Char}
    {result : γ → α} {found : List γ} {last : List Char} (opens : ∀ x ∈ found, Opens (write x))
    (solid : Solid last)
    (more : ∀ x ∈ found, ∀ done later, Solid later →
      Reads (step done) (write x ++ later) (.inl (result x :: done)) later)
    (stop : ∀ done, Reads (step done) last (.inr done.reverse) rest) (done : List α) :
    Reads (loop step done) (found.flatMap write ++ last) (done.reverse ++ found.map result)
      rest := by
  induction found generalizing done with
  | nil =>
    rw [List.map_nil, List.append_nil]
    exact .loop_inr (stop done)
  | cons x found ih =>
    obtain ⟨opensFirst, opens⟩ := List.forall_mem_cons.1 opens
    obtain ⟨first, more⟩ := List.forall_mem_cons.1 more
    have h := ih opens more (result x :: done)
    rw [List.reverse_cons, List.append_assoc] at h
    rw [List.flatMap_cons, List.append_assoc]
    refine .loop_inl (first done _ (solid_flatMap opens solid)) ?_ h
    obtain ⟨c, tail, same, -⟩ := opensFirst
    simp only [same, List.length_append, List.length_cons]
    omega

/-- Items, each with a comma behind it. -/
theorem reads_items {close : Char} {item : Reader α} {write : γ → List Char} {result : γ → α}
    {found : List γ} (closing : close = ']' ∨ close = '\x7d')
    (opens : ∀ x ∈ found, Opens (write x))
    (each : ∀ x ∈ found, ∀ rest, Reads item (write x ++ ',' :: rest) (result x) (',' :: rest)) :
    Reads (items close item) (found.flatMap (fun x => write x ++ [',']) ++ close :: rest)
      (found.map result) rest := by
  have solid : Solid (close :: rest) := by
    rcases closing with rfl | rfl <;> simp [Solid]
  have outside : close ∉ ['"', '0', '[', '\x7b'] := by
    rcases closing with rfl | rfl <;> decide
  have opensEach : ∀ x ∈ found, Opens (write x ++ [',']) := fun x hx => (opens x hx).append _
  refine (solid_flatMap opensEach solid).reads_trivia.bind ?_
  refine reads_collect opensEach solid (fun x hx done later hlater => ?_) (fun done => ?_) []
  · rw [List.append_assoc]
    refine (((opens x hx).append _).reads_accept outside).bind ((each x hx later).bind ?_)
    exact (Solid.reads_trivia (by simp [Solid])).bind
      (reads_accept.bind (hlater.reads_trivia.bind .pure))
  · exact reads_accept.bind .pure

end Reader

/-! ## Tables -/

/-- The assignment of a value to a plain key. -/
def Assignment.of (e : String × Value) : Assignment where
  path := []
  key := e.1
  value := e.2

namespace Entries

/-- A key behind all others goes to the end. -/
theorem alter_append {key : String} {change : Option Node → Option Node} {node : Node}
    {entries : Entries} (below : ∀ e ∈ entries, e.1 < key) (h : change none = some node) :
    alter key change entries = some (entries ++ [(key, node)]) := by
  induction entries with
  | nil => rw [alter, h]; rfl
  | cons e rest ih =>
    obtain ⟨k, there⟩ := e
    obtain ⟨less, below⟩ := List.forall_mem_cons.1 below
    rw [alter, if_neg (fun h => String.lt_irrefl k (String.lt_trans less h)), if_neg ?_, ih below]
    · rfl
    · intro same
      exact String.lt_irrefl k (same ▸ less)

/-- Assignments of plain keys in ascending order give the table with these entries. -/
theorem assignAll_eq_some {entries : List (String × Value)} {before : Entries}
    (keys : Ascending (before ++ entries.map fun e => (e.1, Node.value e.2))) :
    assignAll before (entries.map Assignment.of) =
      some (before ++ entries.map fun e => (e.1, Node.value e.2)) := by
  induction entries generalizing before with
  | nil => rw [List.map_nil, List.map_nil, List.append_nil]; rfl
  | cons e rest ih =>
    have below : ∀ d ∈ before, d.1 < e.1 := fun d hd =>
      (List.pairwise_append.1 keys).2.2 d hd _ List.mem_cons_self
    have first : assign before (.of e) =
        some (before ++ [(e.1, .value e.2)]) := alter_append below rfl
    rw [List.map_cons, List.append_cons] at keys
    rw [List.map_cons, List.map_cons, List.append_cons, assignAll, List.foldlM_cons, first]
    exact ih keys

end Entries

theorem closeAll_map_value (entries : List (String × Value)) :
    closeAll (entries.map fun e => (e.1, Node.value e.2)) = entries := by
  rw [closeAll_eq_map, List.map_map]
  refine (List.map_congr_left fun e _ => ?_).trans (List.map_id entries)
  simp [Node.close]

theorem tableOfAssignments?_eq_some {entries : List (String × Value)} (keys : Ascending entries) :
    tableOfAssignments? (entries.map Assignment.of) =
      some entries := by
  have h : Entries.assignAll [] (entries.map .of) =
      some (entries.map fun e => (e.1, Node.value e.2)) :=
    Entries.assignAll_eq_some keys.map_snd
  rw [tableOfAssignments?, h]
  exact congrArg some (closeAll_map_value entries)

/-! ## Reading back -/

theorem writeItems_eq (items : List Value) :
    writeItems items = items.flatMap fun v => v.write ++ [','] := by
  induction items with
  | nil => rw [writeItems]; rfl
  | cons v rest ih => rw [writeItems, ih, List.flatMap_cons, List.append_assoc]; rfl

theorem writeEntries_eq (entries : List (String × Value)) :
    writeEntries entries = entries.flatMap fun e => writeEntry e ++ [','] := by
  induction entries with
  | nil => rw [writeEntries]; rfl
  | cons e rest ih =>
    rw [writeEntries, ih, List.flatMap_cons]
    simp only [writeEntry, List.append_assoc, List.cons_append, List.nil_append]

theorem Value.Plain.opens {depth : Nat} {v : Value} (h : v.Plain depth) :
    Reader.Opens v.write := by
  cases h with
  | string s => rw [write]; exact Reader.opens_quoted s
  | integer h => rw [write]; exact ⟨_, _, rfl, by decide⟩
  | array each => rw [write]; exact ⟨_, _, rfl, by decide⟩
  | table keys each => rw [write]; exact ⟨_, _, rfl, by decide⟩

namespace Reader

theorem reads_value_of_scalar {depth : Nat} {c : Char} {cs rest : List Char} {v : Value}
    (hc : c = '"' ∨ c = '0') (h : Reads scalar (c :: cs) v rest) :
    Reads (value depth) (c :: cs) v rest := by
  cases depth with
  | zero => exact h
  | succ depth => rcases hc with rfl | rfl <;> exact reads_peek.bind h

theorem opens_writeEntry (e : String × Value) : Opens (writeEntry e) := (opens_quoted _).append _

theorem reads_assignment {gap : Reader Unit} {item : Reader Value} {e : String × Value}
    (blank : ∀ cs, Solid cs → Reads gap cs () cs) (opens : Opens e.2.write)
    (h : Reads item (e.2.write ++ rest) e.2 rest) :
    Reads (assignment gap item) (writeEntry e ++ rest) (.of e) rest := by
  have equals : Solid ('=' :: (e.2.write ++ rest)) := by simp [Solid]
  rw [writeEntry, List.append_assoc, List.cons_append]
  exact (reads_dottedKey e.1).bind ((blank _ equals).bind
    (reads_expect.bind ((blank _ (opens.append rest).solid).bind (h.bind .pure))))

/-- A plain value is read from its text, whatever comes behind it. -/
theorem reads_value {depth : Nat} {v : Value} (h : v.Plain depth) (ends : Ends rest) :
    Reads (value depth) (v.write ++ rest) v rest := by
  induction h generalizing rest with
  | string s =>
    have text := reads_string s ends
    rw [quoted_append] at text
    rw [Value.write, quoted_append]
    exact reads_value_of_scalar (.inl rfl) text
  | integer h =>
    rw [Value.write]
    exact reads_value_of_scalar (.inr rfl) (reads_integer h ends)
  | @array depth items each ih =>
    have found : Reads (Reader.items ']' (value depth))
        (items.flatMap (fun v => v.write ++ [',']) ++ ']' :: rest) (items.map id) rest :=
      reads_items (.inl rfl) (fun v hv => (each v hv).opens) fun v hv rest =>
        ih v hv ⟨',', rest, rfl, .inl rfl⟩
    rw [List.map_id] at found
    rw [Value.write, List.cons_append, List.append_assoc, writeItems_eq]
    exact reads_peek.bind (reads_expect.bind (found.bind .pure))
  | @table depth entries keys each ih =>
    have found : Reads (items '\x7d' (assignment trivia (value depth)))
        (entries.flatMap (fun e => writeEntry e ++ [',']) ++ '\x7d' :: rest)
        (entries.map .of) rest :=
      reads_items (.inr rfl) (fun e _ => opens_writeEntry e) fun e he rest =>
        reads_assignment (fun _ solid => solid.reads_trivia) (each e he).opens
          (ih e he ⟨',', rest, rfl, .inl rfl⟩)
    rw [Value.write, List.cons_append, List.append_assoc, writeEntries_eq]
    refine reads_peek.bind (reads_expect.bind (found.bind ?_))
    rw [Reads, tableOfAssignments?_eq_some keys]
    rfl

/-! ## Lines -/

theorem reads_statement {e : String × Value} (h : e.2.Plain maxDepth) (ends : Ends rest) :
    Reads statement (writeEntry e ++ rest) (.assign (.of e)) rest := by
  have assigned : Reads (assignment blanks (value maxDepth)) (writeEntry e ++ rest) (.of e) rest :=
    reads_assignment (fun _ solid => reads_blanks solid.not_blank) h.opens (reads_value h ends)
  rw [writeEntry, List.append_assoc, quoted_append] at assigned ⊢
  exact (reads_acceptAll_ne (by decide)).bind ((reads_accept_ne (by decide)).bind
    (assigned.bind .pure))

theorem reads_lineEnd : Reads lineEnd ('\n' :: rest) () rest :=
  (reads_blanks (by simp [isBlank])).bind ((reads_comment (by simp)).bind
    (reads_newline.bind .pure))

theorem reads_statements {document : Document} (h : ∀ e ∈ document, e.2.Plain maxDepth) :
    Reads statements (document.flatMap fun e => writeEntry e ++ ['\n'])
      ((document.map .of).map .assign) [] := by
  have opens : ∀ e ∈ document, Opens (writeEntry e ++ ['\n']) := fun e _ =>
    (opens_writeEntry e).append _
  rw [← List.append_nil (document.flatMap _), List.map_map]
  refine reads_collect opens solid_nil (fun e he done later hlater => ?_) (fun done => ?_) []
  · rw [List.append_assoc]
    have line : Reads statement (writeEntry e ++ '\n' :: later) (.assign (.of e)) ('\n' :: later) :=
      reads_statement (h e he) ⟨'\n', later, rfl, .inr rfl⟩
    refine ((opens_writeEntry e).append _).solid.reads_trivia.bind ?_
    rw [writeEntry, List.append_assoc, quoted_append] at line ⊢
    exact reads_peek.bind (line.bind (reads_lineEnd.bind .pure))
  · exact solid_nil.reads_trivia.bind rfl

end Reader

theorem parts_assign (assignments : List Assignment) :
    parts (assignments.map .assign) = (assignments, []) := by
  induction assignments with
  | nil => rfl
  | cons a rest ih => rw [List.map_cons, parts, ih]

namespace Document

theorem ofStatements?_assign (assignments : List Assignment) :
    ofStatements? (assignments.map .assign) = tableOfAssignments? assignments := by
  rw [ofStatements?, parts_assign]
  rfl

theorem dropMark_write (document : Document) :
    dropMark document.write.toList = document.flatMap fun e => writeEntry e ++ ['\n'] := by
  rw [write, String.toList_ofList]
  cases document <;> rfl

/-- A document of plain values, with its keys in order, is the document of its text. -/
theorem ofText?_write {document : Document} (keys : Ascending document)
    (plain : ∀ e ∈ document, e.2.Plain Reader.maxDepth) :
    ofText? document.write = some document := by
  rw [ofText?, dropMark_write, Reader.reads_statements plain]
  exact (ofStatements?_assign _).trans (tableOfAssignments?_eq_some keys)

end Document

end Toml

end GrammarArtifact
