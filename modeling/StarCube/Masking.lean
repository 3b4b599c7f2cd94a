import StarCube.Text.Character
import StarCube.Text.WordCharacter

/-!
Masking of credentials in messages. Six shapes are masked one after the other over the whole
message: a quoted value after `password`, an unquoted one, quoted values after `user`, `token` and
`host`, and the user and password of an address. Keywords are found in any letter case.
-/

namespace StarCube

/-- A shape of secret: what follows the match, if the text starts with one. -/
abbrev SecretShape := List Char → Option (List Char)

namespace Masking

/-- What follows an equals sign or a colon and the white space after it. -/
def afterSeparator : List Char → Option (List Char)
  | c :: rest => if c = '=' || c = ':' then some (rest.dropWhile Text.isBlank) else none
  | [] => none

/-- What follows the longest run of at least one character of a kind. -/
def afterRun (kind : Char → Bool) : List Char → Option (List Char)
  | c :: rest => if kind c then some (rest.dropWhile kind) else none
  | [] => none

def isQuote (c : Char) : Bool :=
  c == '\'' || c == '"'

/-- A character of a quoted value: neither quote, and no semicolon. -/
def isQuotedPart (c : Char) : Bool :=
  !isQuote c && c != ';'

/-- A character of a user in an address. -/
def isUserPart (c : Char) : Bool :=
  !Text.isBlank c && c != '/' && c != ':' && c != '@'

/-- A character of a password in an address. -/
def isPasswordPart (c : Char) : Bool :=
  !Text.isBlank c && c != '/' && c != '@'

/-- What follows one character of a kind. -/
def afterOne (kind : Char → Bool) : List Char → Option (List Char)
  | c :: rest => if kind c then some rest else none
  | [] => none

/-- `keyword = 'value'`: either quote may open and either may close. -/
def quotedSecret (keyword : String) : SecretShape := fun text =>
  (Text.afterKeyword keyword.toList text).bind fun rest =>
    (afterSeparator rest).bind fun rest =>
      (afterOne isQuote rest).bind fun rest =>
        (afterRun isQuotedPart rest).bind (afterOne isQuote)

/-- `keyword = value` with a value of word characters. -/
def bareSecret (keyword : String) : SecretShape := fun text =>
  (Text.afterKeyword keyword.toList text).bind fun rest =>
    (afterSeparator rest).bind (afterRun Text.isWordCharacter)

/-- `://user:password@`. -/
def addressSecret : SecretShape := fun text =>
  (Text.afterKeyword "://".toList text).bind fun rest =>
    (afterRun isUserPart rest).bind fun rest =>
      (afterOne (· == ':') rest).bind fun rest =>
        (afterRun isPasswordPart rest).bind (afterOne (· == '@'))

/-- Replaces the matches of a shape from left to right. Each round passes one character at least;
`rounds` bounds their number. -/
def replaceFor (shape : SecretShape) (mask : List Char) : Nat → List Char → List Char
  | 0, text => text
  | rounds + 1, text =>
      match text with
      | [] => []
      | c :: rest =>
          match shape text with
          | some after => mask ++ replaceFor shape mask rounds after
          | none => c :: replaceFor shape mask rounds rest

/-- Replaces every match of a shape by a mask. -/
def replaceAll (shape : SecretShape) (mask : List Char) (text : List Char) : List Char :=
  replaceFor shape mask text.length text

/-- The shapes in the order in which they are masked, with their masks. -/
def rules : List (SecretShape × String) :=
  [(quotedSecret "password", "password=***"),
   (bareSecret "password", "password=***"),
   (quotedSecret "user", "user=***"),
   (quotedSecret "token", "token=***"),
   (quotedSecret "host", "host=***"),
   (addressSecret, "://***:***@")]

end Masking

/-- A message with its credentials masked. -/
def maskCredentials (message : String) : String :=
  String.ofList (Masking.rules.foldl
    (fun text rule => Masking.replaceAll rule.1 rule.2.toList text) message.toList)

end StarCube
