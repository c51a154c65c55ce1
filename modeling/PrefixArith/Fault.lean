/-!
# Faults

Why a line has no value: its tokens do not make a whole term, or the term cannot be evaluated. Each
fault keeps the byte offset at which it was found. Its message counts columns from one and quotes
texts as they are.
-/
namespace PrefixArith

/-- Why tokens do not make a term. -/
inductive ReadError where
  /-- A token that cannot start a term. -/
  | unexpected (text : String) (offset : Nat)
  /-- The tokens end where an operand has to follow; the offset is the end of the line. -/
  | missingOperand (offset : Nat)
  /-- An application with `limit` applications around it. -/
  | tooDeep (limit offset : Nat)
  deriving DecidableEq, Repr

/-- Why a term has no value. -/
inductive EvalError where
  /-- A keyword or operator without a meaning. -/
  | unsupported (text : String) (offset : Nat)
  /-- A literal that is not the decimal text of a 64-bit word. -/
  | badLiteral (text : String) (offset : Nat)
  /-- An operation whose exact result does not fit into a 64-bit word. -/
  | overflow (offset : Nat)
  deriving DecidableEq, Repr

/-- Why a line has no value. -/
inductive Fault where
  | reading (error : ReadError)
  | evaluation (error : EvalError)
  deriving DecidableEq, Repr

def ReadError.offset : ReadError → Nat
  | .unexpected _ offset => offset
  | .missingOperand offset => offset
  | .tooDeep _ offset => offset

def EvalError.offset : EvalError → Nat
  | .unsupported _ offset => offset
  | .badLiteral _ offset => offset
  | .overflow offset => offset

def Fault.offset : Fault → Nat
  | .reading error => error.offset
  | .evaluation error => error.offset

/-- The column of a byte offset. -/
def column (offset : Nat) : Nat := offset + 1

def ReadError.message : ReadError → String
  | .unexpected text offset => s!"Unexpected token '{text}' at column {column offset}."
  | .missingOperand offset =>
    s!"Unexpected end of input at column {column offset}: an operand is missing."
  | .tooDeep limit offset => s!"Nesting deeper than {limit} levels at column {column offset}."

def EvalError.message : EvalError → String
  | .unsupported text offset => s!"Unsupported operator '{text}' at column {column offset}."
  | .badLiteral text offset => s!"Invalid integer literal '{text}' at column {column offset}."
  | .overflow offset =>
    s!"Integer overflow while computing the operation at column {column offset}."

def Fault.message : Fault → String
  | .reading error => error.message
  | .evaluation error => error.message

end PrefixArith
