import HighlightBundle.Json.Printer
import HighlightBundle.Json.Records

/-!
# Tokens

A piece of code with the style that a theme gives it. A token is written as an object with five
members, of which the two colours may be left out, or as the list of their values.
-/

namespace HighlightBundle

-- powers of numbers are those of the core library, whatever else is in scope
attribute [local instance (2000)] instPowNat

open Json

/-- Style flags. What a bit means is up to the engine. -/
structure FontStyle where
  bits : UInt8
deriving DecidableEq

namespace FontStyle

/-- No style. -/
def none : FontStyle := ⟨0⟩

/-- Whether no flag is set. -/
def isEmpty (style : FontStyle) : Bool := style.bits == 0

/-- The written form. -/
def tree (style : FontStyle) : Tree := .number (.ofNat style.bits.toNat)

end FontStyle

/-- A piece of code with its style. -/
structure Token where
  content : String
  /-- Where it starts in the code, counted in bytes. -/
  offset : Nat
  color : Option String
  background : Option String
  style : FontStyle
deriving DecidableEq

namespace Token

/-- A token as a list of values. -/
def record : Listed := ⟨"ThemedToken", 5⟩

/-- An offset has at most sixty-four bits. -/
def readOffset : Reader Nat := readNatural .word (2 ^ (64 : Nat) - 1)

/-- Style flags are a number of eight bits. -/
def readStyle : Reader FontStyle := fun text ↦ do
  let (bits, rest) ← readNatural .byte 255 text
  return (⟨UInt8.ofNat bits⟩, rest)

/-- The five values in their order. -/
def readValues (_depth : Nat) : Reader Token := fun text ↦ do
  let (content, text) ← record.readField 0 readString text
  let (offset, text) ← record.readField 1 readOffset text
  let (color, text) ← record.readField 2 readOptionalString text
  let (background, text) ← record.readField 3 readOptionalString text
  let (style, text) ← record.readField 4 readStyle text
  return ({ content, offset, color, background, style }, text)

/-- What has been read of an object. -/
structure Draft where
  content : Option String
  offset : Option Nat
  color : Option (Option String)
  background : Option (Option String)
  style : Option FontStyle

namespace Draft

/-- Nothing has been read. -/
def empty : Draft := ⟨none, none, none, none, none⟩

/-- Reads the member with that key. -/
def member (_depth : Nat) (draft : Draft) (key : String) : Reader Draft := fun text ↦
  if key = "content" then do
    let (x, rest) ← setOnce key draft.content readString text
    return ({ draft with content := some x }, rest)
  else if key = "offset" then do
    let (x, rest) ← setOnce key draft.offset readOffset text
    return ({ draft with offset := some x }, rest)
  else if key = "color" then do
    let (x, rest) ← setOnce key draft.color readOptionalString text
    return ({ draft with color := some x }, rest)
  else if key = "bg_color" then do
    let (x, rest) ← setOnce key draft.background readOptionalString text
    return ({ draft with background := some x }, rest)
  else if key = "font_style" then do
    let (x, rest) ← setOnce key draft.style readStyle text
    return ({ draft with style := some x }, rest)
  else skippedMember draft text

/-- The token, if all that is required has been read. -/
def finish (draft : Draft) : Except Cause Token := do
  let content ← required "content" draft.content
  let offset ← required "offset" draft.offset
  let style ← required "font_style" draft.style
  return {
    content, offset, style
    color := draft.color.getD none
    background := draft.background.getD none }

end Draft

/-- A token. -/
def read (depth : Nat) : Reader Token :=
  readRecord readValues
    (readObject (.record record.name) Draft.empty Draft.member Draft.finish) depth

/-- The token that a whole text is. -/
def ofText (text : Text) : Except Fault Token :=
  readWhole (read depthLimit) text

/-- The written form. -/
def tree (token : Token) : Tree :=
  .object [
    ("content", .string token.content), ("offset", .number (.ofNat token.offset)),
    ("color", Tree.ofOption token.color), ("bg_color", Tree.ofOption token.background),
    ("font_style", token.style.tree)]

end Token

end HighlightBundle
