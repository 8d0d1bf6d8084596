import RetryWeave.Text.Bytes

/-!
Slash separated paths.
-/

namespace RetryWeave.Path

def isAbs (p : Bytes) : Bool := p.head? == some Ascii.slash

/-- The elements of a path, without empty ones and `.`. -/
def elements (p : Bytes) : List Bytes :=
  (Bytes.split Ascii.slash p).filter fun e => !(e == [] || e == [Ascii.dot])

def dotDot : Bytes := [Ascii.dot, Ascii.dot]

/-- One step of cleaning: `..` removes the element before it, is dropped at the root, and is kept
where a relative path has nothing to remove. The stack holds the last element first. -/
def pushElement (rooted : Bool) (stack : List Bytes) (e : Bytes) : List Bytes :=
  if e == dotDot then
    match stack with
    | top :: below => if top == dotDot then e :: stack else below
    | [] => if rooted then [] else [e]
  else e :: stack

def cleanElements (rooted : Bool) (es : List Bytes) : List Bytes :=
  (es.foldl (pushElement rooted) []).reverse

def ofElements (rooted : Bool) (es : List Bytes) : Bytes :=
  if rooted then Ascii.slash :: Bytes.join [Ascii.slash] es
  else if es.isEmpty then [Ascii.dot]
  else Bytes.join [Ascii.slash] es

/-- The shortest path that names the same place by its text alone. -/
def clean (p : Bytes) : Bytes :=
  ofElements (isAbs p) (cleanElements (isAbs p) (elements p))

/-- Joins the parts that are not empty and cleans the result; nothing if all are empty. -/
def join (parts : List Bytes) : Bytes :=
  match parts.filter (· ≠ []) with
  | [] => []
  | present => clean (Bytes.join [Ascii.slash] present)

/-- The last element of a path. -/
def base (p : Bytes) : Bytes :=
  if p.isEmpty then [Ascii.dot]
  else
    let trimmed := Bytes.trimEndWhile (· == Ascii.slash) p
    if trimmed.isEmpty then [Ascii.slash]
    else
      match Bytes.cutLast? Ascii.slash trimmed with
      | some (_, name) => name
      | none => trimmed

/-- Everything up to and with the last slash. -/
def dirPart (p : Bytes) : Bytes :=
  match Bytes.cutLast? Ascii.slash p with
  | some (before, _) => before ++ [Ascii.slash]
  | none => []

def dir (p : Bytes) : Bytes := clean (dirPart p)

/-- Removes the common start of two lists. -/
def dropCommon : List Bytes → List Bytes → List Bytes × List Bytes
  | x :: xs, y :: ys => if x = y then dropCommon xs ys else (x :: xs, y :: ys)
  | xs, ys => (xs, ys)

/-- The way from `origin` to `target`, if the texts of both determine one. -/
def relative? (origin target : Bytes) : Option Bytes :=
  let o := clean origin
  let t := clean target
  if t = o then some [Ascii.dot]
  else if isAbs o != isAbs t then none
  else
    let (up, down) := dropCommon (elements o) (elements t)
    if up.head? = some dotDot then none
    else some (Bytes.join [Ascii.slash] (up.map (fun _ => dotDot) ++ down))

end RetryWeave.Path
