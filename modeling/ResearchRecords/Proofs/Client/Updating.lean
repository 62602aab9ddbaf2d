import ResearchRecords.Proofs.Client.Requests
import ResearchRecords.Proofs.Document.Written

/-!
What an update sends. The document has every attribute of the kind, null where it is missing. A
relationship to one target is null exactly if it has no target; a target that has no id yet is left
out, so that what is stored for the relationship is kept. A list names its targets that have ids.
-/
namespace ResearchRecords

open Json (Value Members)
open Results

namespace Document

variable (record : Record)

end Document

namespace Client

open Document

end Client

end ResearchRecords
