import GrammarArtifact.Schema.Mismatch
import GrammarArtifact.Toml.Document
import GrammarArtifact.Toml.Readable

/-! Reading texts that should describe something. What a reading does not look at may be unreadable;
once the reading fails, a text with anything unreadable in it counts as no document at all. -/

namespace GrammarArtifact

namespace Schema

inductive Fault where
  | invalidDocument
  | mismatch (m : Mismatch)

/-- The end of a message. What is wrong with an invalid document is not told. -/
def Fault.detail : Fault → String
  | invalidDocument => ""
  | mismatch m => s!": {m.message}"

def Fault.ofMismatch (document : Toml.Document) (m : Mismatch) : Fault :=
  if document.isReadable then .mismatch m else .invalidDocument

/-- What a text describes, by the document that a parser makes of it. -/
def ofTextWith {α : Type} (parse : String → Option Toml.Document)
    (read : Toml.Document → Except Mismatch α) (text : String) : Except Fault α :=
  match parse text with
  | none => .error .invalidDocument
  | some document => (read document).mapError (.ofMismatch document)

end Schema

end GrammarArtifact
