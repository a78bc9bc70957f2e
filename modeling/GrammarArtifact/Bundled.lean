import GrammarArtifact.Grammar.Compile
import GrammarArtifact.Loader

/-! The grammar table that comes with the library. -/

namespace GrammarArtifact

namespace Bundled

def name : String := "sindarin"

def fields : List String :=
  ["alias", "alternative", "body", "condition", "consequence", "default", "expression", "format",
   "function", "index", "init", "iterable", "kind", "left", "library", "modifier", "name",
   "object", "operator", "parameters", "path", "pattern", "property", "return_type", "right",
   "type", "update", "value", "variable"]

/-- Terminals with names. -/
def tokens : List String :=
  ["line_comment", "hash_comment", "block_comment", "identifier", "number", "char_literal",
   "escape_sequence", "format_specifier", "angle_string", "pragma_pack_value"]

/-- Keywords and punctuation. -/
def literals : List String :=
  ["fn", "struct", "native", "import", "if", "else", "for", "in", "while", "match", "return",
   "break", "continue", "var", "=>", "(", ")", ",", ":"]

/-- Everything that is made of other symbols. -/
def nonTerminals : List String :=
  ["source_file", "_top_level_item", "pragma", "decorator", "import_statement",
   "type_declaration", "struct_declaration", "struct_body", "field_declaration",
   "function_declaration", "native_function_declaration", "static_function_declaration",
   "visibility_modifier", "parameter_list", "parameter", "type", "primitive_type",
   "type_identifier", "array_type", "function_type", "namespaced_type", "block", "_statement",
   "variable_declaration", "assignment_statement", "if_statement", "else_clause", "for_statement",
   "for_in_statement", "while_statement", "match_statement", "match_arm", "return_statement",
   "break_statement", "continue_statement", "expression_statement", "_expression",
   "primary_expression", "parenthesized_expression", "unary_expression", "binary_expression",
   "call_expression", "member_expression", "index_expression", "cast_expression",
   "struct_literal", "field_initializer", "array_literal", "spawn_expression", "sync_expression",
   "string", "interpolated_string", "interpolation", "boolean", "nil", "self", "arena"]

def kindOf (nonTerminal : String) : SymbolKind :=
  if nonTerminal = "_expression" then .supertype
  else if nonTerminal = "_top_level_item" ∨ nonTerminal = "_statement" then .hidden
  else .rule

def grammar : Grammar where
  name := name
  states := ⟨412, 64⟩
  fields := fields
  symbols := tokens.map (⟨·, .token⟩) ++ literals.map (⟨·, .literal⟩) ++
    nonTerminals.map fun s => ⟨s, kindOf s⟩

def artifact : Bytes :=
  match grammar.compile with
  | .ok bytes => bytes
  | .error _ => []

def region : Region := .whole 0 artifact

def language : Except LoadError Language := Loader.load {} (some region)

end Bundled

end GrammarArtifact
