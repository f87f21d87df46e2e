import Wiring.Comment.Documentation
import Wiring.Declaration.Basic
import Wiring.Settings.Basic

/-!
# Declarations that know whether they were read

A name with its comments.  The comments are read when the documentation is asked for the first time,
and `describe` shows whether that has happened.
-/

namespace Wiring

/-- A name, its comments, and their documentation once it was asked for. -/
structure Annotated where
  marker : String
  name : String
  comments : List String
  read : Option Documentation
  deriving DecidableEq

namespace Annotated

/-- A name with comments that nobody has asked for; the marker must not be empty. -/
def create (marker name : String) (comments : List String) : Except SettingsError Annotated :=
  if marker.toList.isEmpty then .error .noMarker else .ok ⟨marker, name, comments, none⟩

def documentation (a : Annotated) : Documentation :=
  a.read.getD (.ofComments a.marker a.comments)

def consulted (a : Annotated) : Annotated :=
  { a with read := some a.documentation }

/-- The name, the number of comments and whether they were read. -/
def describe (a : Annotated) : String :=
  "Decl \x7b name: " ++ Text.quote a.name ++ ", comments: " ++ toString a.comments.length ++
    ", parsed: " ++ toString a.read.isSome ++ " \x7d"

end Annotated

end Wiring
