import RetryWeave.Syntax.Grammar.Basic

/-!
Types, signatures, and the elements of structs and interfaces.
-/

namespace RetryWeave.Syntax.Grammar

open Parse

/-! ### Names and instances -/

/-- A name, or a name qualified by a package. -/
def typeName (first : Option Ident) : Parse Expr := do
  let id ← match first with
    | some id => pure id
    | none => ident
  if ← accept .period then
    let sel ← ident
    return .selector (.ident id) sel
  else return .ident id

/-- The type arguments after a type. -/
def typeInstance (r : Nested) (type : Expr) : Parse Expr := do
  let opening ← expect .lbrack
  let args ← deeper (commaList .rbrack r.type)
  let closing ← expect .rbrack
  if args.isEmpty then refuse else return .index type opening args closing

def qualifiedName (r : Nested) (first : Option Ident) : Parse Expr := do
  let name ← typeName first
  if (← kind) == .lbrack then typeInstance r name else return name

/-! ### Arrays -/

/-- An array or slice type after its opening bracket; the length may have been read already. -/
def arrayType (r : Nested) (lbrack : Pos) (length : Option Expr) : Parse Expr := do
  let length ← match length with
    | some n => pure (some n)
    | none => deeper do
      let t ← current
      if t.kind == .ellipsis then
        next
        return some (.ellipsis (some t.start) none)
      else if t.kind == .rbrack then return none
      else return some (← r.expr)
  let _ ← expect .rbrack
  let elem ← r.type
  return .array lbrack length elem

/-- After a name: an array type that belongs to it, or type arguments that make the name a type.
Returns the name only in the first case. -/
def arrayOrInstance (r : Nested) (name : Ident) : Parse (Option Ident × Expr) := do
  let lbrack ← expect .lbrack
  let (args, trailing) ← deeper do
    if (← kind) == .rbrack then return ([], false)
    else
      let first ← r.expr
      let rest ← many do
        if (← kind) == .comma then
          next
          if (← kind) == .rbrack then return some none else return some (some (← r.expr))
        else return none
      return (first :: rest.filterMap id, rest.any Option.isNone)
  let rbrack ← expect .rbrack
  match args with
  | [] => return (some name, .array lbrack none (← r.type))
  | [len] =>
    match ← r.type? with
    | some elem => if trailing then refuse else return (some name, .array lbrack (some len) elem)
    | none => return (none, .index (.ident name) lbrack args rbrack)
  | _ => return (none, .index (.ident name) lbrack args rbrack)

/-! ### Unions of terms -/

def term (r : Nested) : Parse Expr := do
  let t ← current
  if t.kind == .tilde then
    next
    return .unary (some t.start) .tilde (← r.type)
  else r.type

/-- Terms joined by `|`; the first may have been read already. -/
def union (r : Nested) (first : Option Expr) : Parse Expr := do
  let x ← match first with
    | some x => pure x
    | none => term r
  grow (fun x => do
    let t ← current
    if t.kind == .or then
      next
      return some (.binary x (some t.start) .or (← term r))
    else return none) x

/-! ### Parameters -/

/-- A parameter as written: a name, a type, or both. -/
structure Param where
  name : Option Ident
  type : Option Expr

def dotsType (r : Nested) : Parse Expr := do
  let pos ← expect .ellipsis
  return .ellipsis pos (some (← r.type))

/-- Tokens that start a type other than a name. -/
def startsType (k : Tok) : Bool :=
  k == .mul || k == .arrow || k == .kwFunc || k == .kwChan || k == .kwMap || k == .kwStruct ||
    k == .kwInterface || k == .lparen

/-- A parameter. In a list of type parameters a type may be a union of terms. -/
def param (r : Nested) (typeParams : Bool) (first : Option Ident) : Parse Param := do
  let extend (p : Param) : Parse Param := do
    match p.type with
    | some t =>
      if typeParams && (← kind) == .or then return { p with type := some (← union r (some t)) }
      else return p
    | none => return p
  let named (name : Ident) : Parse Param := do
    let k ← kind
    if k == .ident || startsType k then extend ⟨some name, some (← r.type)⟩
    else if k == .lbrack then
      let (name', type) ← arrayOrInstance r name
      extend ⟨name', some type⟩
    else if k == .ellipsis then return ⟨some name, some (← dotsType r)⟩
    else if k == .period then extend ⟨none, some (← qualifiedName r (some name))⟩
    else if typeParams && k == .tilde then return ⟨some name, some (← union r none)⟩
    else if typeParams && k == .or then return ⟨none, some (← union r (some (.ident name)))⟩
    else return ⟨some name, none⟩
  match first with
  | some name => named name
  | none =>
    let k ← kind
    if typeParams && k == .tilde then return ⟨none, some (← union r none)⟩
    else if k == .ident then named (← ident)
    else if startsType k || k == .lbrack then extend ⟨none, some (← r.type)⟩
    else if k == .ellipsis then return ⟨none, some (← dotsType r)⟩
    else refuse

/-- Fields of parameters that all have names: those before a type share it. -/
def shareTypes : List Ident → List Param → Option (List Field)
  | [], [] => some []
  | _ :: _, [] => none
  | names, p :: rest =>
    match p.name, p.type with
    | some name, none => shareTypes (names ++ [name]) rest
    | some name, some type =>
      (shareTypes [] rest).map (⟨none, names ++ [name], type, none, none⟩ :: ·)
    | none, _ => none

/-- Fields of parameters without names: what looks like a name is a type. -/
def unnamedFields (params : List Param) : List Field :=
  params.filterMap fun p =>
    match p.type, p.name with
    | some type, _ => some ⟨none, [], type, none, none⟩
    | none, some name => some ⟨none, [], .ident name, none, none⟩
    | none, none => none

def isDots : Expr → Bool
  | .ellipsis _ _ => true
  | _ => false

/-- A variadic parameter stands last, shares its type with no other, and is allowed at all. -/
def dotsAllowed (variadic : Bool) (fields : List Field) : Bool :=
  fields.dropLast.all (fun f => !isDots f.type) &&
    match fields.getLast? with
    | some f => !isDots f.type || (variadic && f.names.length ≤ 1)
    | none => true

/-- The parameters up to the closing token. Either all have names or none has; type parameters all
have. The first name, and with it the start of its type, may have been read already. -/
def paramList (r : Nested) (closing : Tok) (variadic : Bool) (name0 : Option Ident)
    (type0 : Option Expr) : Parse (List Field) := do
  let typeParams := closing == .rbrack
  let head ← match name0 with
    | none => pure []
    | some name => do
      let p ← match type0 with
        | some t => do
          let t ← if typeParams then union r (some t) else pure t
          pure ⟨some name, some t⟩
        | none => param r typeParams (some name)
      pure [p]
  let more ← if head.isEmpty then pure true
    else do
      let comma ← atComma closing
      if comma then next
      pure comma
  let tail ← if more then commaList closing (param r typeParams none) else pure []
  let params := head ++ tail
  let fields ← if params.all fun p => !(p.name.isSome && p.type.isSome) then
      if typeParams && !params.isEmpty then refuse else pure (unnamedFields params)
    else
      match shareTypes [] params with
      | some fields => pure fields
      | none => refuse
  if dotsAllowed variadic fields then return fields else refuse

def parameters (r : Nested) (variadic : Bool) : Parse FieldList := do
  let opening ← expect .lparen
  let fields ← paramList r .rparen variadic none none
  let closing ← expect .rparen
  return ⟨opening, fields, closing⟩

/-- The results of a signature: in parentheses, a single type, or none. -/
def results (r : Nested) : Parse (Option FieldList) := do
  if (← kind) == .lparen then return some (← parameters r false)
  else
    match ← r.type? with
    | some type => return some ⟨none, [⟨none, [], type, none, none⟩], none⟩
    | none => return none

def typeParameters (r : Nested) : Parse FieldList := do
  let opening ← expect .lbrack
  let fields ← paramList r .rbrack false none none
  let closing ← expect .rbrack
  if fields.isEmpty then refuse else return ⟨opening, fields, closing⟩

def signature (r : Nested) (func : Pos) (typeParams : Option FieldList) : Parse FuncType := do
  let params ← parameters r true
  return ⟨func, typeParams, params, ← results r⟩

def funcType (r : Nested) : Parse FuncType := do
  let pos ← expect .kwFunc
  signature r pos none

/-! ### Structs -/

def fieldDecl (r : Nested) : Parse Field := do
  let doc := (← current).lead
  let (names, type) ← do
    let t ← current
    match t.kind with
    | .ident =>
      let name ← ident
      match ← kind with
      | .period => pure ([], ← qualifiedName r (some name))
      | .string | .semicolon | .rbrace => pure ([], .ident name)
      | _ =>
        let more ← many do
          if ← accept .comma then return some (← ident) else return none
        if more.isEmpty && (← kind) == .lbrack then
          let (name', type) ← arrayOrInstance r name
          pure (name'.toList, type)
        else pure (name :: more, ← r.type)
    | .mul =>
      next
      if (← kind) == .lparen then refuse
      else pure ([], .star (some t.start) (← qualifiedName r none))
    | _ => refuse
  let tag ← if (← kind) == .string then some <$> literal else pure none
  let comment ← expectSemi
  return ⟨doc, names, type, tag, comment⟩

def structType (r : Nested) : Parse Expr := do
  let pos ← expect .kwStruct
  let opening ← expect .lbrace
  let fields ← many do
    let k ← kind
    if k == .ident || k == .mul || k == .lparen then return some (← fieldDecl r) else return none
  let closing ← expect .rbrace
  return .struct pos ⟨opening, fields, closing⟩

/-! ### Interfaces -/

/-- An interface element that starts with a name: a method, or an embedded type. -/
def namedElement (r : Nested) : Parse (List Ident × Expr) := do
  match ← typeName none with
  | .ident name =>
    match ← kind with
    | .lbrack =>
      let lbrack ← expect .lbrack
      let first ← deeper r.expr
      let rest ← if ← atComma .rbrack then deeper do
          next
          commaList .rbrack r.type
        else pure []
      let rbrack ← expect .rbrack
      return ([], .index (.ident name) lbrack (first :: rest) rbrack)
    | .lparen => return ([name], .funcType (← signature r none none))
    | _ => return ([], .ident name)
  | type =>
    if (← kind) == .lbrack then return ([], ← typeInstance r type) else return ([], type)

def interfaceElement (r : Nested) : Parse (Option Field) := do
  let t ← current
  match t.kind with
  | .ident =>
    let (names, type) ← namedElement r
    let type ← if names.isEmpty then union r (some type) else pure type
    return some ⟨t.lead, names, type, none, ← expectSemi⟩
  | .tilde =>
    let type ← union r none
    return some ⟨none, [], type, none, ← expectSemi⟩
  | _ =>
    match ← r.type? with
    | some first =>
      let type ← union r (some first)
      return some ⟨none, [], type, none, ← expectSemi⟩
    | none => return none

def interfaceType (r : Nested) : Parse Expr := do
  let pos ← expect .kwInterface
  let opening ← expect .lbrace
  let methods ← many (interfaceElement r)
  let closing ← expect .rbrace
  return .interface pos ⟨opening, methods, closing⟩

/-! ### Types -/

def mapType (r : Nested) : Parse Expr := do
  let pos ← expect .kwMap
  let _ ← expect .lbrack
  let key ← r.type
  let _ ← expect .rbrack
  return .map pos key (← r.type)

def chanType (r : Nested) : Parse Expr := do
  let t ← current
  if t.kind == .kwChan then
    next
    let arrow := (← current).start
    if ← accept .arrow then return .chan (some t.start) (some arrow) .send (← r.type)
    else return .chan (some t.start) none .both (← r.type)
  else
    let arrow ← expect .arrow
    let _ ← expect .kwChan
    return .chan (some t.start) arrow .receive (← r.type)

/-- A type, or nothing where none starts. -/
def type? (r : Nested) : Parse (Option Expr) := do
  match ← kind with
  | .ident => return some (← qualifiedName r none)
  | .lbrack =>
    let lbrack ← expect .lbrack
    return some (← arrayType r lbrack none)
  | .kwStruct => return some (← structType r)
  | .mul =>
    let pos ← expect .mul
    return some (.star pos (← r.type))
  | .kwFunc => return some (.funcType (← funcType r))
  | .kwInterface => return some (← interfaceType r)
  | .kwMap => return some (← mapType r)
  | .kwChan | .arrow => return some (← chanType r)
  | .lparen =>
    let lparen ← expect .lparen
    let type ← r.type
    let rparen ← expect .rparen
    return some (.paren lparen type rparen)
  | _ => return none

end RetryWeave.Syntax.Grammar
