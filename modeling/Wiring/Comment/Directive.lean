import Wiring.Dict
import Wiring.Text.Basic
import Wiring.Text.CharClass

/-!
# Directives

A directive is a line such as `ease:api method=POST path=/todos`: a marker, a colon, a name made of
word characters, and parameters.  White space around the line does not count.  The name is the
longest run of word characters after the colon, and what follows it must stand on one line; its words
of the form `key=value` are the parameters, and its other words are passed over.
-/

namespace Wiring

structure Directive where
  name : String
  params : Dict String
  deriving DecidableEq

namespace Directive

/-- The key and the value of a word: a key of letters, numbers and `_`, then `=`, then a value. -/
def param? (word : List Char) : Option (String × String) :=
  match Text.cut? '=' word with
  | some (key, value) =>
    if !key.isEmpty && key.all Text.isKeyChar && !value.isEmpty then
      some (String.ofList key, String.ofList value)
    else none
  | none => none

/-- The parameters that stand after the name of a directive; the last one of a key counts. -/
def paramsOf (rest : List Char) : Dict String :=
  .ofList ((Text.words rest).filterMap param?)

/-- What follows the marker and the colon at the start of a text. -/
def afterMarker? (marker : List Char) (line : List Char) : Option (List Char) :=
  (marker ++ [':']).isPrefixOf? line

def ofLine? (marker : List Char) (line : List Char) : Option Directive :=
  match afterMarker? marker (Text.trim line) with
  | none => none
  | some body =>
    let name := body.takeWhile Text.isWord
    let rest := body.dropWhile Text.isWord
    if name.isEmpty || rest.contains '\n' then none
    else some ⟨String.ofList name, paramsOf rest⟩

def param (d : Directive) (key : String) : Option String :=
  d.params.get? key

end Directive

end Wiring
