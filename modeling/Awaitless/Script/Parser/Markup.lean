import Awaitless.Script.Parser.Goal

/-!
# Elements of a markup language

In a dialect that is not read, elements stand where values stand. They are recognised, so that the
complaint about them can say what they are.

* `markup` — an element with all that is in it.
-/

namespace Awaitless.Script.Parser

variable (rules : Rules)

/-! ## Names and texts -/

/-- A name, in which hyphens may stand. -/
def markupName : P String := do
  unless isName (← kind) do return ← unexpected
  let isPart (c : Char) : Bool := c == '-' || Text.isIdentifierPart c
  let more := ((← get).cursor.rest.takeWhile isPart)
  change (fun s => { s with cursor := s.cursor.drop more.length }) fun _ => .of_same rfl rfl rfl rfl
  return (← nameText) ++ String.ofList more

/-- The name of an element: parts with dots between them, or two with a colon. -/
def elementName : P String := do
  let first ← markupName
  if ← eat .colon then return first ++ ":" ++ (← markupName)
  iterate (fun name => do
    unless ← eat .dot do return .inr name
    return .inl (name ++ "." ++ (← markupName))) (← limit) first

/-- Reads past the text behind the current token, up to the next bracket. -/
def advanceText : P Unit := do
  let isText (c : Char) : Bool := c != '<' && c != '\x7b'
  let length := ((← get).cursor.rest.takeWhile isText).length
  change (fun s => { s with cursor := s.cursor.drop length }) fun _ => .of_same rfl rfl rfl rfl
  advanceBy Lexer.childStart

/-- A closing mark, behind which a text begins if `inText`. -/
def closeBy (m : Punctuator) (inText : Bool) : P Unit := do
  if inText && (← atMark m) then advanceText else expect m

/-- The end of a tag. -/
def closeTag (inText : Bool) : P Unit := do
  splitAngle
  closeBy .greater inText

/-- Whether a tag ends here. -/
def atTagEnd : P Bool := do
  match ← kind with
  | .mark m => return m.shown == ">"
  | _ => return false

/-! ## Attributes -/

/-- The value of an attribute; `child` reads an element behind its opening bracket. -/
def attributeValue (child : P Unit) : P Unit := do
  match ← kind with
  | .string _ _ _ => advance
  | .mark .leftBrace =>
    advance
    if ← atMark .rightBrace then note .emptyAttribute
    else
      let _ ← rules .expression
    expect .rightBrace
  | .mark .less =>
    advance
    child
  | _ => unexpected

/-- The attributes of an element. -/
def attributes (child : P Unit) : P Unit := do
  iterate (fun () => do
    if (← hasFailed) || (← atTagEnd) || (← atMark .slash) || (← atMark .less) then
      return .inr ()
    if ← eat .leftBrace then
      expect .ellipsis
      let _ ← rules .expression
      expect .rightBrace
      return .inl ()
    let _ ← markupName
    if ← eat .colon then
      let _ ← markupName
    if ← atMark (.assign none) then
      advanceBy Lexer.attributeValue
      attributeValue rules child
    return .inl ()) (← limit) ()

/-! ## Elements -/

/-- What stands between two tags, and the tag that ends it; `name` is empty for a group. -/
def children (child : P Unit) (name : String) (inText : Bool) : P Unit := do
  iterate (fun () => do
    match ← kind with
    | .mark .leftBrace =>
      advance
      let _ ← eat .ellipsis
      unless ← atMark .rightBrace do
        let _ ← rules .expression
      closeBy .rightBrace true
      return .inl ()
    | .mark .less =>
      advance
      unless ← eat .slash do
        child
        return .inl ()
      let closing ← if ← atTagEnd then pure "" else elementName
      closeTag inText
      unless closing == name do note (if name.isEmpty then .groupEnd else .elementEnd name)
      return .inr ()
    | _ => return .inr (← unexpected)) (← limit) ()

/-- An element behind its opening bracket; behind a child, a text goes on. -/
def elementFrom : (depth : Nat) → (isChild : Bool) → P Unit
  | 0, _ => unexpected
  | depth + 1, isChild => do
    let child := elementFrom depth
    if ← atTagEnd then
      closeTag true
      children rules (child true) "" isChild
    else
      let name ← elementName
      attributes rules (child false)
      if ← eat .slash then closeTag isChild
      else
        closeTag true
        children rules (child true) name isChild

/-- An element at its opening bracket. -/
def markup : P Unit := do
  advance
  elementFrom rules (← limit) false

end Awaitless.Script.Parser
