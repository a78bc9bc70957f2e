import GrammarArtifact.FileStore
import GrammarArtifact.Grammar.Read

/-! Descriptions read from files, and artifacts written to them. A description that does not compile
leaves every file as it is. -/

namespace GrammarArtifact

namespace Grammar

def readFrom (store : FileStore) (name : String) : Except CompileError Grammar := do
  let content ← (store.read name).mapError (.file name)
  match content.text? with
  | none => .error (.file name .notText)
  | some text => ofText text

/-- Compiles a description into a file. The outcome comes with the store as it is afterwards. -/
def writeTo (g : Grammar) (name : String) (store : FileStore) :
    Except CompileError Unit × FileStore :=
  match g.compile with
  | .error e => (.error e, store)
  | .ok bytes =>
    match store.write name bytes with
    | .error e => (.error (.file name e), store)
    | .ok after => (.ok (), after)

end Grammar

end GrammarArtifact
