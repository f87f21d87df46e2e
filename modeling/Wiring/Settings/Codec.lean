import Wiring.Json.Fields
import Wiring.Settings.Basic

/-!
# Settings as JSON

Settings are written with all their fields.  When they are read, every field may be absent and then
has its default.
-/

namespace Wiring

open Json (fields? string? list? bool? natural? maxWord)

namespace ProducerPolicy

def ofJson? (v : Json) : Option ProducerPolicy :=
  (Json.case? v).bind ofWord?

end ProducerPolicy

namespace ParserSettings

def toJson (s : ParserSettings) : Json :=
  .object [("directive_prefix", .string s.marker), ("producer_policy", .string s.policy.word)]

def ofJson? (v : Json) : Option ParserSettings := do
  let fs ← fields? v
  return { marker := ← fs.getD? "directive_prefix" default.marker string?
           policy := ← fs.getD? "producer_policy" default.policy ProducerPolicy.ofJson? }

end ParserSettings

namespace SourceSettings

def toJson (s : SourceSettings) : Json :=
  .object
    [("include_tests", .bool s.includeTests), ("skip_dirs", Json.strings s.skippedDirs),
      ("max_module_depth", .natural s.maxModuleDepth)]

def ofJson? (v : Json) : Option SourceSettings := do
  let fs ← fields? v
  return { includeTests := ← fs.getD? "include_tests" default.includeTests bool?
           skippedDirs := ← fs.getD? "skip_dirs" default.skippedDirs (list? string?)
           maxModuleDepth := ← fs.getD? "max_module_depth" default.maxModuleDepth
             (natural? maxWord) }

end SourceSettings

end Wiring
