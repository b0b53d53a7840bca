import FilterGraph.Document.Rules
import FilterGraph.Host.Files

/-!
# Pipeline documents in files

`Files.readPipeline` reads a document from a file: the bytes have to be UTF-8, the text has to be
JSON, and the value has to be a document. `LoadError` tells at which of these steps a file falls.
-/

namespace FilterGraph

/-- Why a file holds no document. -/
inductive LoadError where
  | unreadable (e : OsError)
  | nullInPath
  | notText
  | invalid (issues : List Schema.Issue)
  deriving DecidableEq, Repr

/-- The name of the record that a document is. -/
def documentTitle : String := "PipelineSpec"

/-- The document in a file. -/
def Files.readPipeline (fs : Files) (p : Path) : Except LoadError Pipeline :=
  if p.hasNull then .error .nullInPath
  else match fs.read p with
    | .error e => .error (.unreadable e)
    | .ok bytes => match String.fromUTF8? ⟨bytes.toArray⟩ with
      | none => .error .notText
      | some text => (Schema.Check.ofText Pipeline.ofJson text).mapError .invalid

end FilterGraph
