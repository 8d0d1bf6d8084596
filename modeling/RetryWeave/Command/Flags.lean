import RetryWeave.Failure
import RetryWeave.Text.Quoted

/-!
The flags of a command line.
-/

namespace RetryWeave.Command

inductive FlagKind where
  | switch
  | text
  | number
deriving DecidableEq, Repr

/-- A flag with its long name and, possibly, its letter. -/
structure Flag where
  name : Bytes
  letter : Option UInt8
  kind : FlagKind
deriving DecidableEq, Repr

inductive FlagValue where
  | switch (b : Bool)
  | text (t : Bytes)
  | number (n : Int)
deriving DecidableEq, Repr

/-- Why a text is no number. -/
inductive NumberFault where
  | malformed
  | outOfRange
deriving DecidableEq, Repr

/-- Why a value does not fit its flag. -/
inductive ValueFault where
  | switch
  | number (f : NumberFault)
deriving DecidableEq, Repr

/-- Misuse of the command line. -/
inductive UsageError where
  | badFlag (arg : Bytes)
  | unknownFlag (name : Bytes)
  | unknownLetter (letter : UInt8) (letters : Bytes)
  | noValue (name : Bytes)
  | noLetterValue (letter : UInt8) (letters : Bytes)
  | badValue (value : Bytes) (flag : Flag) (fault : ValueFault)
  | unknownCommand (word parent : Bytes) (similar : List Bytes)
  | wrongCount (expected given : Nat)
  | exclusive (group present : List Bytes)
deriving DecidableEq, Repr

namespace ValueFault

def message (value : Bytes) (fault : ValueFault) : Bytes :=
  let (reader, reason) : Bytes × Bytes := match fault with
    | .switch => ("ParseBool", "invalid syntax")
    | .number .malformed => ("ParseInt", "invalid syntax")
    | .number .outOfRange => ("ParseInt", "value out of range")
  "strconv." ++ reader ++ ": parsing " ++ Quoted.quote value ++ ": " ++ reason

end ValueFault

namespace UsageError

/-- How a letter is shown. A byte that is no character by itself is shown by the first byte of the
character of its number. -/
def letterText (b : UInt8) : Bytes :=
  Quoted.quoteChar (Char.ofNat (if b < 0x80 then b.toNat else if b < 0xC0 then 0xC2 else 0xC3))

def message : UsageError → Bytes
  | .badFlag arg => "bad flag syntax: " ++ arg
  | .unknownFlag name => "unknown flag: --" ++ name
  | .unknownLetter letter letters =>
    "unknown shorthand flag: " ++ letterText letter ++ " in -" ++ letters
  | .noValue name => "flag needs an argument: --" ++ name
  | .noLetterValue letter letters =>
    "flag needs an argument: " ++ letterText letter ++ " in -" ++ letters
  | .badValue value flag fault =>
    let shown := (match flag.letter with
      | some l => [Ascii.minus, l] ++ ", "
      | none => []) ++ "--" ++ flag.name
    "invalid argument " ++ Quoted.quote value ++ " for " ++ Quoted.quote shown ++ " flag: " ++
      fault.message value
  | .unknownCommand word parent similar =>
    let hint : Bytes := if similar.isEmpty then []
      else "\n\nDid you mean this?\n" ++ similar.flatMap fun s => Ascii.tab :: s ++ [Ascii.newline]
    "unknown command " ++ Quoted.quote word ++ " for " ++ Quoted.quote parent ++ hint
  | .wrongCount expected given =>
    "accepts " ++ Bytes.ofNat expected ++ " arg(s), received " ++ Bytes.ofNat given
  | .exclusive group present =>
    "if any flags in the group [" ++ Bytes.join " " group ++
      "] are set none of the others can be; [" ++ Bytes.join " " present ++ "] were all set"

def failure (e : UsageError) : Failure := .text e.message

end UsageError

/-! ### Values -/

def switch? (text : Bytes) : Option Bool :=
  if ["1", "t", "T", "TRUE", "true", "True"].any fun w => Bytes.ofString w == text then some true
  else if ["0", "f", "F", "FALSE", "false", "False"].any fun w => Bytes.ofString w == text then
    some false
  else none

/-- The value of digits in a base, up to sixty-four bits. Underscores are passed over. -/
def digitsValue (base : Nat) : Nat → Bytes → Except NumberFault Nat
  | n, [] => .ok n
  | n, b :: rest =>
    if b = Ascii.underscore then digitsValue base n rest
    else
      let d := Ascii.digitValue b
      if base ≤ d then .error .malformed
      else if 1 <<< 64 ≤ n * base + d then .error .outOfRange
      else digitsValue base (n * base + d) rest

/-- Underscores must stand between digits; the mark of a base counts as a digit. -/
def underscoresFit (afterDigit : Bool) : Bytes → Bool
  | [] => true
  | b :: rest =>
    if b = Ascii.underscore then
      afterDigit && (match rest with
        | c :: _ => c ≠ Ascii.underscore
        | [] => false) && underscoresFit false rest
    else underscoresFit true rest

/-- A number without a sign: decimal, or in the base that its start tells. -/
def unsigned (text : Bytes) : Except NumberFault Nat :=
  match text with
  | [] => .error .malformed
  | first :: afterZero =>
    let (base, digits, marked) : Nat × Bytes × Bool :=
      if first ≠ Ascii.zero then (10, text, false)
      else
        match afterZero with
        | mark :: d :: rest =>
          let m := Ascii.toLower mark
          if m = 98 then (2, d :: rest, true)
          else if m = 111 then (8, d :: rest, true)
          else if m = 120 then (16, d :: rest, true)
          else (8, afterZero, true)
        | _ => (8, afterZero, true)
    match digitsValue base 0 digits with
    | .error f => .error f
    | .ok n => if underscoresFit marked digits then .ok n else .error .malformed

/-- A number of sixty-four bits with an optional sign. -/
def number (text : Bytes) : Except NumberFault Int :=
  let (negative, body) := match text with
    | Ascii.minus :: rest => (true, rest)
    | Ascii.plus :: rest => (false, rest)
    | _ => (false, text)
  match unsigned body with
  | .error f => .error f
  | .ok n =>
    if negative then if n ≤ 1 <<< 63 then .ok (-(n : Int)) else .error .outOfRange
    else if n < 1 <<< 63 then .ok n
    else .error .outOfRange

namespace Flag

/-- The value that a text stands for. -/
def read (f : Flag) (text : Bytes) : Except UsageError FlagValue :=
  match f.kind with
  | .text => .ok (.text text)
  | .switch =>
    match switch? text with
    | some b => .ok (.switch b)
    | none => .error (.badValue text f .switch)
  | .number =>
    match number text with
    | .ok n => .ok (.number n)
    | .error fault => .error (.badValue text f (.number fault))

end Flag

/-! ### Arguments -/

/-- Flags that are set, in order, and the other arguments. -/
structure Parsed where
  values : List (Bytes × FlagValue)
  args : List Bytes
deriving DecidableEq, Repr

namespace Parsed

def empty : Parsed := ⟨[], []⟩

def put (p : Parsed) (name : Bytes) (v : FlagValue) : Parsed :=
  { p with values := p.values ++ [(name, v)] }

def putText (p : Parsed) (f : Flag) (text : Bytes) : Except UsageError Parsed :=
  (f.read text).map (p.put f.name)

def isSet (p : Parsed) (name : Bytes) : Bool := p.values.any (·.1 == name)

/-- The last value of a flag. -/
def get? (p : Parsed) (name : Bytes) : Option FlagValue := p.values.reverse.lookup name

def switch (p : Parsed) (name : Bytes) : Bool :=
  match p.get? name with
  | some (.switch b) => b
  | _ => false

def text (p : Parsed) (name : Bytes) : Bytes :=
  match p.get? name with
  | some (.text t) => t
  | _ => []

def number (p : Parsed) (name : Bytes) : Int :=
  match p.get? name with
  | some (.number n) => n
  | _ => 0

end Parsed

def findFlag? (flags : List Flag) (name : Bytes) : Option Flag := flags.find? (·.name == name)

def findLetter? (flags : List Flag) (letter : UInt8) : Option Flag :=
  flags.find? (·.letter == some letter)

/-- The flags of a cluster of letters. The last may still need a value, and then its letter is
returned with it. Clusters that start with `test.` are for test runners. -/
def cluster (flags : List Flag) :
    Bytes → Parsed → Except UsageError (Parsed × Option (Flag × UInt8))
  | [], p => .ok (p, none)
  | letter :: more, p =>
    if Bytes.startsWith "test." (letter :: more) then .ok (p, none)
    else
      match findLetter? flags letter with
      | none => .error (.unknownLetter letter (letter :: more))
      | some f =>
        match more with
        | Ascii.equal :: b :: rest => (p.putText f (b :: rest)).map (·, none)
        | _ =>
          if f.kind = .switch then cluster flags more (p.put f.name (.switch true))
          else if more.isEmpty then .ok (p, some (f, letter))
          else (p.putText f more).map (·, none)

/-- A flag by its long name, with its value if that is given after an equal sign. -/
def longFlag (flags : List Flag) (arg : Bytes) : Except UsageError (Flag × Option Bytes) :=
  let body := arg.drop 2
  if body.head? == some Ascii.minus || body.head? == some Ascii.equal then .error (.badFlag arg)
  else
    let (name, value) := match Bytes.cut? "=" body with
      | some (n, v) => (n, some v)
      | none => (body, none)
    match findFlag? flags name with
    | none => .error (.unknownFlag name)
    | some f => .ok (f, value)

/-- Reads arguments. After two dashes none of them is a flag. -/
def parseArgs (flags : List Flag) : List Bytes → Parsed → Except UsageError Parsed
  | [], p => .ok p
  | arg :: rest, p =>
    match arg with
    | Ascii.minus :: Ascii.minus :: [] => .ok { p with args := p.args ++ rest }
    | Ascii.minus :: Ascii.minus :: _ =>
      match longFlag flags arg with
      | .error e => .error e
      | .ok (f, some value) =>
        match p.putText f value with
        | .error e => .error e
        | .ok p' => parseArgs flags rest p'
      | .ok (f, none) =>
        if f.kind = .switch then parseArgs flags rest (p.put f.name (.switch true))
        else
          match rest with
          | [] => .error (.noValue f.name)
          | value :: rest' =>
            match p.putText f value with
            | .error e => .error e
            | .ok p' => parseArgs flags rest' p'
    | Ascii.minus :: letter :: letters =>
      match cluster flags (letter :: letters) p with
      | .error e => .error e
      | .ok (p', none) => parseArgs flags rest p'
      | .ok (p', some (f, last)) =>
        match rest with
        | [] => .error (.noLetterValue last [last])
        | value :: rest' =>
          match p'.putText f value with
          | .error e => .error e
          | .ok p'' => parseArgs flags rest' p''
    | _ => parseArgs flags rest { p with args := p.args ++ [arg] }

/-! ### Words -/

/-- Whether an argument is a flag that takes the next argument as its value. A flag that is not
known is taken for one. -/
def takesNext (flags : List Flag) (arg : Bytes) : Bool :=
  let isSwitch (f : Option Flag) : Bool := (f.map (·.kind == .switch)).getD false
  match arg with
  | Ascii.minus :: Ascii.minus :: name =>
    !arg.contains Ascii.equal && !isSwitch (findFlag? flags name)
  | [Ascii.minus, letter] => letter ≠ Ascii.equal && !isSwitch (findLetter? flags letter)
  | _ => false

def isWord (arg : Bytes) : Bool := !arg.isEmpty && arg.head? != some Ascii.minus

/-- The arguments that are neither flags nor their values. -/
def words (flags : List Flag) : List Bytes → List Bytes
  | [] => []
  | arg :: rest =>
    if arg = Bytes.ofString "--" then []
    else if takesNext flags arg then
      match rest with
      | _ :: next :: rest' => words flags (next :: rest')
      | _ => []
    else if isWord arg then arg :: words flags rest
    else words flags rest

/-- The arguments without the first occurrence of a word. -/
def withoutWord (flags : List Flag) (word : Bytes) : List Bytes → List Bytes
  | [] => []
  | arg :: rest =>
    if arg = Bytes.ofString "--" then arg :: rest
    else if takesNext flags arg then
      match rest with
      | value :: rest' => arg :: value :: withoutWord flags word rest'
      | [] => [arg]
    else if arg = word then rest
    else arg :: withoutWord flags word rest

end RetryWeave.Command
