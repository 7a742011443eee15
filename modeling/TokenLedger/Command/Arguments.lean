import TokenLedger.Text.Number

/-!
What is asked for on the command line. Options have a long and a short name and take a value, which
comes after an equals sign, directly after a short name, or as the next word. After two dashes alone
all words are taken as they are.
-/

namespace TokenLedger

/-- What a node can be asked to do. -/
inductive Command where
  | replay (blocksFile : String)
  | utxos
  | serve (fromHeight : UInt64) (nonce : Int32)
  | sync (responseFile : String) (nonce : Int32) (fromHeight? : Option UInt64)
  | fee (txId : String) (provider? : Option String)
  | opReturn (text : String)
deriving DecidableEq, Repr

/-- What the words of a command line come to. -/
inductive Invocation where
  | version
  | command (configFile? : Option String) (c : Command)
deriving DecidableEq, Repr

namespace Command

/-- An option. -/
structure OptionName where
  long : String
  short : Char
  /-- Whether the next word is the value even if it begins with a dash. -/
  dashAllowed : Bool := false

/-- What one word is. -/
inductive Word where
  | escape
  | long (name : List Char) (value? : Option (List Char))
  | short (name : Char) (rest : List Char)
  | plain (s : String)

/-- The part before an equals sign and the part after it. -/
def splitEquals (cs : List Char) : List Char × Option (List Char) :=
  let name := cs.takeWhile (· ≠ '=')
  match cs.dropWhile (· ≠ '=') with
  | _ :: value => (name, some value)
  | [] => (name, none)

/-- Takes a word apart. A dash alone is a word like any other. -/
def Word.ofString (s : String) : Word :=
  match s.toList with
  | ['-', '-'] => .escape
  | '-' :: '-' :: rest =>
    let (name, value?) := splitEquals rest
    .long name value?
  | '-' :: c :: rest => .short c rest
  | _ => .plain s

/-- Whether a word may be the value of an option. -/
def OptionName.takes (o : OptionName) (s : String) : Bool :=
  o.dashAllowed ||
    match Word.ofString s with
    | .plain _ => true
    | _ => false

/-- The values that were given, under the long names of their options, and the plain words. -/
structure Given where
  values : List (String × String) := []
  words : List String := []

/-- One more value; no option is given twice. -/
def Given.withValue (g : Given) (o : OptionName) (value : String) : Option Given :=
  if g.values.any (fun e => e.1 == o.long) then none
  else some { g with values := (o.long, value) :: g.values }

/-- The value of an option. -/
def Given.value? (g : Given) (long : String) : Option String :=
  (g.values.find? fun e => e.1 == long).map Prod.snd

/-- Finds out which option a word gives, and its value if the word holds it. -/
def OptionName.find? (options : List OptionName) : Word → Option (OptionName × Option String)
  | .long name value? => do
    let o ← options.find? fun o => o.long.toList == name
    return (o, value?.map String.ofList)
  | .short c rest => do
    let o ← options.find? fun o => o.short == c
    match rest with
    | [] => return (o, none)
    | '=' :: value => return (o, some (String.ofList value))
    | value => return (o, some (String.ofList value))
  | _ => none

/-- Goes through the words of a command. -/
def gather (options : List OptionName) : Given → List String → Option Given
  | g, [] => some g
  | g, s :: rest =>
    match Word.ofString s with
    | .escape => some { g with words := g.words ++ rest }
    | .plain s => gather options { g with words := g.words ++ [s] } rest
    | word =>
      match OptionName.find? options word with
      | none => none
      | some (o, some value) =>
        match g.withValue o value with
        | some g => gather options g rest
        | none => none
      | some (o, none) =>
        match rest with
        | [] => none
        | value :: rest =>
          if o.takes value then
            match g.withValue o value with
            | some g => gather options g rest
            | none => none
          else none

/-- The path that a word is: any but the empty one. -/
def path? (s : String) : Option String := if s.isEmpty then none else some s

/-- The height that a word is. -/
def height? (s : String) : Option UInt64 := (Text.readU64 s).toOption

/-- A value that may be missing, but has to be of the right kind if it is there. -/
def optional {α : Type} (read : String → Option α) : Option String → Option (Option α)
  | none => some none
  | some s => (read s).map some

def blocksOption : OptionName := { long := "blocks", short := 'b' }
def fromOption : OptionName := { long := "from", short := 'f' }
def nonceOption : OptionName := { long := "nonce", short := 'n', dashAllowed := true }
def responseOption : OptionName := { long := "response", short := 'r' }
def providerOption : OptionName := { long := "provider", short := 'p' }
def configOption : OptionName := { long := "config", short := 'c' }

/-- The command of a name with its words. -/
def ofWords? (name : String) (words : List String) : Option Command :=
  if name = "replay" then do
    let g ← gather [blocksOption] {} words
    match g.words with
    | [] => return .replay (← (← g.value? "blocks") |> path?)
    | _ => none
  else if name = "utxos" then do
    let g ← gather [] {} words
    match g.words with
    | [] => return .utxos
    | _ => none
  else if name = "serve" then do
    let g ← gather [fromOption, nonceOption] {} words
    match g.words with
    | [] =>
      return .serve (← (← g.value? "from") |> height?) (← (← g.value? "nonce") |> Text.readI32?)
    | _ => none
  else if name = "sync" then do
    let g ← gather [responseOption, nonceOption, fromOption] {} words
    match g.words with
    | [] =>
      return .sync (← (← g.value? "response") |> path?) (← (← g.value? "nonce") |> Text.readI32?)
        (← optional height? (g.value? "from"))
    | _ => none
  else if name = "fee" then do
    let g ← gather [providerOption] {} words
    match g.words with
    | [txId] => return .fee txId (g.value? "provider")
    | _ => none
  else if name = "op-return" then do
    let g ← gather [] {} words
    match g.words with
    | [text] => return .opReturn text
    | _ => none
  else none

/-- Goes through the words before the name of a command. -/
def request? : (configFile? : Option String) → List String → Option Invocation
  | _, [] => none
  | configFile?, s :: rest =>
    match Word.ofString s with
    | .escape => none
    | .plain name => do return .command configFile? (← ofWords? name rest)
    | .short 'V' _ => some .version
    | word =>
      match word, OptionName.find? [configOption] word with
      | .long name none, none => if name = "version".toList then some .version else none
      | _, none => none
      | _, some (_, some value) =>
        if configFile?.isSome || value.isEmpty then none else request? (some value) rest
      | _, some (o, none) =>
        match rest with
        | [] => none
        | value :: rest =>
          if configFile?.isSome || value.isEmpty || !o.takes value then none
          else request? (some value) rest

/-- What a command line asks for. The file of the settings can also be named in the environment, but
not by an empty name. -/
def parse? (configVariable? : Option String) (words : List String) : Option Invocation := do
  match ← request? none words with
  | .command none c => return .command (← optional path? configVariable?) c
  | request => return request

end Command

end TokenLedger
