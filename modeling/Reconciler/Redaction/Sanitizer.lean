import Reconciler.Text.Blank

/-! # Sanitizing messages

Error texts and log messages may quote a credential. The sanitizer looks for four forms in turn and
replaces what they give away by a marker:

* `password`, then the value up to the next delimiter;
* the environment variables that carry passwords, in the same way;
* `stringData`, then a value in braces;
* `token`, then a value of letters, digits and `-`, `_`, `.`, `=`.

Between the name and the value there may be a quote, there must be white space, colons or equal signs,
and there may be another quote. Names are found in any letter case. Each form is looked for from left to
right, and what has been matched is not looked at again.

The recognisers are total and structural: `Form.matchAt` decides whether a form starts at a position,
`Form.redact` goes over a text.
-/

namespace Reconciler

/-! ## Characters -/

/-- A letter in lower case. Besides the capital letters this folds the long s, the Kelvin sign, and the
dotted capital and dotless small i, which count as forms of s, k and i. -/
def foldCase (c : Char) : Char :=
  if c.toNat = 0x17F then 's'
  else if c.toNat = 0x212A then 'k'
  else if c.toNat = 0x130 || c.toNat = 0x131 then 'i'
  else c.toLower

/-- The two quotes. -/
def isQuote (c : Char) : Bool :=
  c = '"' || c.toNat = 0x27

/-- What stands between a name and its value. -/
def isSeparator (c : Char) : Bool :=
  c = ':' || c = '=' || blank c

/-- A character of a password: anything but a delimiter. -/
def isSecretChar (c : Char) : Bool :=
  !(blank c || c = ',' || c = ';' || c = ')' || isQuote c)

/-- A character of a token. -/
def isTokenChar (c : Char) : Bool :=
  let f := foldCase c
  ('a' ≤ f && f ≤ 'z') || ('0' ≤ c && c ≤ '9') || c = '-' || c = '_' || c = '.' || c = '='

/-! ## Pieces of a form -/

/-- What follows a word at the start of a text, if it starts with the word in any letter case. The word
is given in lower case. -/
def afterWord : (word text : List Char) → Option (List Char)
  | [], text => some text
  | _ :: _, [] => none
  | w :: word, c :: text => if foldCase c = w then afterWord word text else none

/-- An optional quote at the start of a text, and the rest. -/
def takeQuote : List Char → List Char × List Char
  | [] => ([], [])
  | c :: rest => if isQuote c then ([c], rest) else ([], c :: rest)

/-- The last of the separators after the first one that may itself start a value, with what precedes
it. -/
def lastStart (ok : Char → Bool) : List Char → Option (List Char × Char)
  | [] => none
  | c :: rest => go c rest
where
  /-- `lastStart` with the separator just passed. -/
  go (passed : Char) : List Char → Option (List Char × Char)
    | [] => none
    | c :: rest => match go c rest with
      -- a later separator that fits goes first
      | some (before, start) => some (passed :: before, start)
      | none => if ok c then some ([passed], c) else none

/-- How the value of a form is delimited. -/
inductive ValueForm where
  /-- All characters of a class, at least one. -/
  | run (ok : Char → Bool)
  /-- Braces with anything but a closing brace between them. -/
  | braced

/-- A text in braces at the start of a text: up to the first closing brace. -/
def takeBraced : List Char → Option (List Char)
  | '\x7b' :: rest =>
    if rest.contains '\x7d' then some ('\x7b' :: rest.takeWhile (· ≠ '\x7d') ++ ['\x7d']) else none
  | _ => none

/-- The value after a name: what comes before it, and the value. `text` starts behind the name and its
quote.

A run of characters starts behind all separators and the quote after them. When nothing of its class is
there, it starts at the last separator that belongs to the class, if one separator remains before it,
and consists of that character alone: what follows is out of the class, or the run would not have
been empty. -/
def ValueForm.find (form : ValueForm) (text : List Char) : Option (List Char × List Char) :=
  let separators := text.takeWhile isSeparator
  let after := text.dropWhile isSeparator
  if separators.isEmpty then none else
  match form with
  | run ok =>
    let (quote, rest) := takeQuote after
    let value := rest.takeWhile ok
    if value.isEmpty then (lastStart ok separators).map fun (before, c) => (before, [c])
    else some (separators ++ quote, value)
  | braced => (takeBraced after).map fun value => (separators, value)

/-! ## Forms -/

/-- A form in which a credential appears: its names, in lower case, and its value. -/
structure Form where
  names : List (List Char)
  value : ValueForm

namespace Form

/-- The form with one of the names: everything before the value, and the value. -/
def withName (value : ValueForm) (text name : List Char) : Option (List Char × List Char) := do
  let behind ← afterWord name text
  let (quote, rest) := takeQuote behind
  let (before, secret) ← value.find rest
  return (text.take name.length ++ quote ++ before, secret)

/-- Whether a form starts at the beginning of a text: everything before its value, and the value. -/
def matchAt (form : Form) (text : List Char) : Option (List Char × List Char) :=
  form.names.findSome? (withName form.value text)

end Form

/-- What a credential is replaced by. -/
def redactionMark : List Char := "[REDACTED]".toList

/-- Replaces every occurrence of `old`, from left to right, after skipping `skip` characters. -/
def replaceFrom (old new : List Char) : (skip : Nat) → List Char → List Char
  | _, [] => []
  | skip + 1, _ :: rest => replaceFrom old new skip rest
  | 0, c :: rest =>
    if old.isPrefixOf (c :: rest) then new ++ replaceFrom old new (old.length - 1) rest
    else c :: replaceFrom old new 0 rest

/-- A matched form with its credential replaced, also where it repeats in the name. -/
def redacted (before secret : List Char) : List Char :=
  replaceFrom secret redactionMark 0 (before ++ secret)

namespace Form

/-- Redacts every occurrence of a form in a text, after dropping `skip` characters that belong to the
match before. -/
def redactFrom (form : Form) : (skip : Nat) → List Char → List Char
  | _, [] => []
  | skip + 1, _ :: rest => redactFrom form skip rest
  | 0, c :: rest =>
    match form.matchAt (c :: rest) with
    | some (before, secret) =>
      redacted before secret ++ redactFrom form (before.length + secret.length - 1) rest
    | none => c :: redactFrom form 0 rest

/-- Redacts every occurrence of a form in a text. -/
def redact (form : Form) (text : List Char) : List Char :=
  form.redactFrom 0 text

def password : Form := ⟨["password".toList], .run isSecretChar⟩

/-- An environment variable with a password. -/
def passwordVariable : Form where
  names := ["postgres_password".toList, "keycloak_password".toList, "db_password".toList,
    "starlane_password".toList]
  value := .run isSecretChar

def stringData : Form := ⟨["stringdata".toList], .braced⟩

def token : Form := ⟨["token".toList], .run isTokenChar⟩

end Form

/-- The forms, in the order they are looked for. -/
def sensitiveForms : List Form :=
  [.password, .passwordVariable, .stringData, .token]

/-- A message without the credentials it quotes. -/
def sanitize (message : String) : String :=
  .ofList (sensitiveForms.foldl (fun text form => form.redact text) message.toList)

end Reconciler
