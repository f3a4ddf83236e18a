import InterfaceSchemes.Declaration.Field
import InterfaceSchemes.DependencyOrder
import InterfaceSchemes.OutputModule

/-!
# Whole batches

All sources of a run are taken together: a record may use a record of any other source. Either every
output module of the batch is produced or none is.
-/

namespace InterfaceSchemes.Batch

/-- The records of each source. The earliest source that cannot be read decides the error. -/
def parse (sources : List Source) : Except Error (List SourceRecords) :=
  sources.mapM SourceRecords.ofSource

/-- The records of a batch in the order of their declaration. -/
def records (files : List SourceRecords) : List Record := files.flatMap SourceRecords.records

/-- The output modules for the records of a batch. -/
def convert (settings : Settings) (files : List SourceRecords) :
    Except Error (List OutputModule) := do
  let sorted ← DependencyOrder.sort (records files)
  let decls ← (Registry.emitAll settings [] sorted).1
  return OutputModule.group settings decls

/-- The path and the text of an output module. -/
def renderOutput (settings : Settings) (m : OutputModule) : Except Error (Text × Text) := do
  let text ← m.render settings
  return (m.path, text)

/-- The path and the text of each output module for a batch of sources. -/
def generate (settings : Settings) (sources : List Source) : Except Error (List (Text × Text)) := do
  let files ← parse sources
  let modules ← convert settings files
  modules.mapM (renderOutput settings)

end InterfaceSchemes.Batch
