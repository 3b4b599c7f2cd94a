/-!
Identifiers that may be written into a statement: parts of ASCII letters, digits and low lines that
start with no digit, joined by single dots. A line end may follow the last part.
-/

namespace StarCube

/-- A character that may start a part of an identifier. -/
def isIdentifierStart (c : Char) : Bool :=
  c.isAlpha || c == '_'

/-- A character that may stand inside a part of an identifier. -/
def isIdentifierRest (c : Char) : Bool :=
  c.isAlphanum || c == '_'

mutual

/-- The rest of an identifier inside a part. -/
def identifierPart : List Char → Bool
  | [] => true
  | ['\n'] => true
  | c :: rest =>
      if isIdentifierRest c then identifierPart rest else c == '.' && identifierStart rest

/-- An identifier from the start of a part. -/
def identifierStart : List Char → Bool
  | [] => false
  | c :: rest => isIdentifierStart c && identifierPart rest

end

/-- Why a text is refused as an identifier. `what` names its role. -/
inductive IdentifierFault where
  | empty (what : String)
  | tooLong (what text : String)
  | malformed (what text : String)
deriving DecidableEq, Repr

namespace IdentifierFault

def message : IdentifierFault → String
  | .empty what => "Empty " ++ what ++ " not allowed"
  | .tooLong what text => what ++ " too long: " ++ text
  | .malformed what text =>
      "Invalid " ++ what ++ ": " ++ text ++
        ". Only alphanumeric characters, underscores, and dots allowed"

end IdentifierFault

/-- The most characters that an identifier may have. -/
def identifierLimit : Nat := 128

/-- Returns the text if it is an identifier of acceptable length. -/
def checkIdentifier (what text : String) : Except IdentifierFault String :=
  if text.isEmpty then .error (.empty what)
  else if identifierLimit < text.length then .error (.tooLong what text)
  else if identifierStart text.toList then .ok text
  else .error (.malformed what text)

theorem checkIdentifier_eq_ok {what text checked : String}
    (h : checkIdentifier what text = .ok checked) : checked = text := by
  unfold checkIdentifier at h
  split at h <;> try simp at h
  split at h <;> try simp at h
  split at h <;> simp_all

end StarCube
