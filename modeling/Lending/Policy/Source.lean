import Lending.Failure
import Lending.Json.Writer
import Lending.Policy.Bundle
import Lending.Policy.Sections
import Lending.Yaml.Written

/-! Sources of policies: texts, documents that are read already, and files that may not be
there. Sources are read and merged in their order. -/
namespace Lending

inductive Source where
  | text (s : String)
  | documents (ds : List Document)
  /-- A file that is not there. -/
  | missing

/-- The contents of files by path. -/
abbrev Files := String → Option Source

/-- The text of a file. Documents stand in it one by one, with lines between them. -/
def Files.text? (files : Files) (path : String) : Option String :=
  match files path with
  | some (.text s) => some s
  | some (.documents ds) => some (Text.joined "\n---\n" (ds.map Json.write))
  | some .missing | none => none

namespace Bundle

/-- The bundle of a policy text. -/
def ofText (s : String) : Noted ReadError Bundle :=
  match Policy.documents s with
  | some ds => ofDocuments ds
  | none => Noted.fail .malformedText

/-- The bundle of documents that a text could hold. -/
def ofWritten (ds : List Document) : Noted ReadError Bundle :=
  if ds.all Yaml.isWritable then ofDocuments (ds.filter (!Document.isNull ·))
  else Noted.fail .malformedText

def ofSource : Source → Noted Failure Bundle
  | .text s => (ofText s).mapError .reading
  | .documents ds => (ofWritten ds).mapError .reading
  | .missing => Noted.fail .noSuchFile

/-- Adds sources to a bundle. -/
def addSources (b : Bundle) : List Source → Noted Failure Bundle
  | [] => return b
  | s :: rest => do
    let other ← ofSource s
    let merged ← Noted.ofExcept ((b.merge other).mapError .reading)
    addSources merged rest

/-- The bundle of several sources. -/
def ofSources (sources : List Source) : Noted Failure Bundle :=
  empty.addSources sources

end Bundle

end Lending
