import Reconciler.Fault
import Reconciler.Program.Basic

/-! # Random characters

A source of randomness can draw characters at distinct positions of a pool and can shuffle characters.
What it does is up to the environment; `RandomOp.refuses` says when a draw has to fail.
-/

namespace Reconciler

/-- What a source of randomness can be asked. -/
inductive RandomOp where
  /-- Opens a fresh source; later questions go to it. -/
  | source
  /-- Draws `count` characters at distinct positions of a pool. -/
  | sample (pool : List Char) (count : Int)
  /-- Shuffles characters. -/
  | shuffle (chars : List Char)
deriving DecidableEq, Repr

namespace RandomOp

def Answer : RandomOp → Type
  | source => Unit
  | sample _ _ => Except Fault (List Char)
  | shuffle _ => List Char

/-- Whether a draw asks for fewer than no or for more characters than the pool has. -/
def refuses (pool : List Char) (count : Int) : Bool :=
  count < 0 || pool.length < count

/-- What is said about such a draw. -/
def refusal : Fault :=
  .badValue "Sample larger than population or is negative"

end RandomOp

/-- Programs that draw random characters. -/
def randomSignature : Signature := ⟨RandomOp, RandomOp.Answer⟩

/-- A program that draws random characters, and may fail. -/
abbrev Draw := ExceptT Fault (Program randomSignature)

/-- Draws characters from the open source. -/
def drawSample (pool : List Char) (count : Int) : Draw (List Char) :=
  .mk (.query (S := randomSignature) (.sample pool count))

/-! ## Passwords -/

namespace Password

def letters : List Char := "abcdefghijklmnopqrstuvwxyzABCDEFGHIJKLMNOPQRSTUVWXYZ".toList

def digits : List Char := "0123456789".toList

def symbols : List Char := "~!@#$%^&*()_+`-=\x7b\x7d|[]\\:\"<>?,./".toList

/-- What is said about more digits and symbols than the password has characters. -/
def compositionFault : Fault :=
  .badValue "digits and symbols exceed the password length"

/-- A password of `length` characters, no two the same: so many digits, so many symbols, letters for
the rest. -/
def generate (length digitCount symbolCount : Int) : Draw String := do
  let letterCount := length - digitCount - symbolCount
  if letterCount < 0 then
    throw compositionFault
  let _ ← (Program.query (S := randomSignature) .source : Program _ Unit)
  let chosenLetters ← drawSample letters letterCount
  let chosenDigits ← drawSample digits digitCount
  let chosenSymbols ← drawSample symbols symbolCount
  let shuffled ← (Program.query (S := randomSignature)
    (.shuffle (chosenLetters ++ chosenDigits ++ chosenSymbols)) : Program _ (List Char))
  return .ofList shuffled

/-- A password whose composition is given by values. They must be numbers; when one of them is no whole
number, the count of the letters is none either, and so many cannot be drawn even if the pool has
enough. -/
def generateFrom (length digitCount symbolCount : Value) : Draw String :=
  match length.whole?, digitCount.whole?, symbolCount.whole? with
  | some l, some d, some s => generate l d s
  | _, _, _ => match length.number?, digitCount.number?, symbolCount.number? with
    | some l, some d, some s =>
      if l - d - s < 0 then throw compositionFault
      else if letters.length < l - d - s then throw RandomOp.refusal
      else throw .wrongShape
    | _, _, _ => throw .wrongShape

/-- A password of the usual composition. -/
def generateDefault : Draw String :=
  generate 16 4 4

end Password

end Reconciler
