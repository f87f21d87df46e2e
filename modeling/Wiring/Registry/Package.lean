import Wiring.Digest.Sha256
import Wiring.Text.Basic
import Wiring.Text.CharClass

/-!
# Packages

A package is known by its import path.  Its name is the last part of the path, where a part that only
gives a major version, such as `v2`, is passed over.  Its alias is the name made fit for generated
code, followed by four hexadecimal digits of the digest of the path.
-/

namespace Wiring

structure Package where
  path : String
  deriving DecidableEq, Inhabited, Repr

/-- A name in which every character but letters, numbers and `_` became `_`. -/
def sanitizeIdent (name : List Char) : List Char :=
  name.map fun c => if Text.isKeyChar c then c else '_'

namespace Package

/-- Whether `c` is one of the quotes around a path. -/
def isQuote (c : Char) : Bool :=
  c == '"' || c == '\x60'

/-- A path without white space around it and then without quotes. -/
def canonicalPath (path : String) : String :=
  String.ofList (Text.trimWhile isQuote (Text.trim path.toList))

def ofPath (path : String) : Package :=
  ⟨canonicalPath path⟩

/-- Whether a part of a path gives a major version. -/
def isMajorVersion (part : List Char) : Bool :=
  match part with
  | 'v' :: digits => !digits.isEmpty && digits.all Char.isDigit
  | _ => false

/-- The last part of a path, or the one before if the last gives a major version. -/
def lastName (path : List Char) : List Char :=
  match ((path.splitOn '/').filter (!·.isEmpty)).reverse with
  | [] => path
  | [last] => last
  | last :: previous :: _ => if isMajorVersion last then previous else last

def name (p : Package) : String :=
  String.ofList (lastName p.path.toList)

def localAlias (p : Package) : String :=
  String.ofList (sanitizeIdent p.name.toList) ++ "_" ++ Digest.shortHex p.path

end Package

end Wiring
