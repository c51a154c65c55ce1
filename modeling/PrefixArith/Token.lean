/-!
# Tokens

A formula is written as a sequence of tokens: numbers, operators, keywords and parentheses. A token
keeps its text and the byte offset at which it stands in its line, so that a fault can name the
place.
-/
namespace PrefixArith

/-- The part that a token plays in a formula. -/
inductive Token.Kind where
  | keyword | number | operator | paren
  deriving DecidableEq, Repr

/-- A token of a line; `offset` counts the UTF-8 bytes before it. -/
structure Token where
  kind : Token.Kind
  text : String
  offset : Nat
  deriving DecidableEq, Repr

namespace Token

def isParen (token : Token) : Bool := token.kind = .paren

end Token

end PrefixArith
