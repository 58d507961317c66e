import HighlightBundle.Bundle.Dump
import HighlightBundle.Failure
import HighlightBundle.Path

/-!
# Files

The files that definitions and dumps are kept in, by the places where they stand. Every directory
that a place can start from is there, and nothing else is until it is made or written. A file holds
bytes, or a dump. A dump is kept as the text that was compressed, because the bytes of a compressed
frame are nobody's business: unpacking gives that text back, and a reader that takes a dump for
text sees the four bytes with which every frame begins.

No other bytes are a frame. They are called incomplete when they begin as one does, as far as they
go.
-/

namespace HighlightBundle

/-- What a file holds. -/
inductive Content where
  | bytes (bytes : List UInt8)
  /-- A compressed frame with this text in it. -/
  | dump (text : Text)
deriving DecidableEq

namespace Content

/-- The bytes with which a compressed frame begins. -/
def frameStart : List UInt8 := [0x28, 0xB5, 0x2F, 0xFD]

/-- What a reader of text sees. -/
def text : Content → Text
  | .bytes b => Text.ofBytes b
  | .dump _ => Text.ofBytes frameStart

/-- The text that was compressed. -/
def unpack : Content → Except FileFailure Text
  | .dump text => .ok text
  | .bytes b =>
    if (b.take 4).isPrefixOf frameStart then .error .incompleteFrame else .error .unknownFrame

/-- The content that a string is. -/
def ofString (s : String) : Content :=
  .bytes s.toUTF8.toList

end Content

/-- What stands at a path. -/
inductive Node where
  | directory
  | file (content : Content)
deriving DecidableEq

/-- The files and directories that are known, by the places where they stand. -/
structure Files where
  nodes : List (Place × Node)
deriving DecidableEq

namespace Files

/-- No files, and no directories but those that are always there. -/
def empty : Files := ⟨[]⟩

/-- What stands at a place. -/
def node? (files : Files) (place : Place) : Option Node :=
  if place.names.isEmpty then some .directory else files.nodes.lookup place

/-- The files with a node at a place. -/
def put (files : Files) (place : Place) (node : Node) : Files :=
  ⟨(place, node) :: files.nodes⟩

/-! ## Following paths -/

/-- What is wrong with a path whatever the files are. -/
def pathFailure? (path : String) : Option FileFailure :=
  if path.toList.contains '\x00' then some .nulInName
  else if path.isEmpty then some .missing
  else if 4096 ≤ path.utf8ByteSize then some .nameTooLong
  else none

/-- Follows the parts of a path from a place; gives the place where it ends. -/
def follow (files : Files) (place : Place) : List String → Except FileFailure Place
  | [] => .ok place
  | step :: rest =>
    match files.node? place with
    | some .directory =>
      if Path.isStill step then files.follow place rest
      else if Path.isUp step then files.follow place.up rest
      else if 255 < step.utf8ByteSize then .error .nameTooLong
      else match files.node? (place.child step) with
        | some _ => files.follow (place.child step) rest
        | none => .error .missing
    | some (.file _) => .error .notDirectory
    | none => .error .missing

/-- What stands at a path. -/
def find (files : Files) (path : String) : Except FileFailure Node := do
  if let some failure := pathFailure? path then throw failure
  let place ← files.follow (Path.start path) (Path.steps path)
  match files.node? place with
  | some node => return node
  | none => throw .missing

/-- The content of the file at a path. -/
def read (files : Files) (path : String) : Except FileFailure Content := do
  match ← files.find path with
  | .file content => return content
  | .directory => throw .isDirectory

/-- Writes a file, in place of one that is there. The last name of the path is the file's, and what
is before it has to lead to a directory. A path that ends in a slash can only mean a directory, so
its last name is not looked up. -/
def write (files : Files) (path : String) (content : Content) : Except FileFailure Files := do
  if let some failure := pathFailure? path then throw failure
  let way := (Path.steps path).reverse
  let name := way.headD ""
  let place ← files.follow (Path.start path) (way.dropWhile String.isEmpty).tail.reverse
  match files.node? place with
  | some .directory =>
    if Path.isStill name || Path.isUp name then throw .isDirectory
    else if 255 < name.utf8ByteSize then throw .nameTooLong
    else match files.node? (place.child name) with
      | some .directory => throw .isDirectory
      | _ => return files.put (place.child name) (.file content)
  | _ => throw .notDirectory

/-! ## Laying out files -/

/-- Follows the parts of a path from a place and makes each directory that is not there; gives the
files and the place where the path ends. -/
def makeWay (files : Files) (place : Place) : List String → Files × Place
  | [] => (files, place)
  | step :: rest =>
    if Path.isStill step then files.makeWay place rest
    else if Path.isUp step then files.makeWay place.up rest
    else
      match files.node? (place.child step) with
      | some _ => files.makeWay (place.child step) rest
      | none => (files.put (place.child step) .directory).makeWay (place.child step) rest

/-- Makes a directory, and the ones on the way to it. -/
def makeDirectory (files : Files) (path : String) : Files :=
  (files.makeWay (Path.start path) (Path.steps path)).1

/-- Makes a file that holds the content, and the directories on the way to it. -/
def makeFile (files : Files) (path : String) (content : Content) : Files :=
  let way := Path.steps path
  let (files, place) := files.makeWay (Path.start path) way.dropLast
  files.put (place.child (way.getLast?.getD "")) (.file content)

/-! ## Definitions in files -/

/-- Reads a definition from a file as a stream. A directory can be opened, but not read. -/
def readDefinition {α : Type} (files : Files) (path : String)
    (reader : Text → Except Json.Fault α) : Except Failure α :=
  match files.find path with
  | .error cause => .error (.file cause)
  | .ok .directory => .error (.unreadable .isDirectory)
  | .ok (.file content) => (reader content.text).mapError (.ofFault true content.text)

end Files

/-- The language definition in a file. -/
def Language.ofFile (files : Files) (path : String) : Except Failure Language :=
  files.readDefinition path Language.ofText

/-- The theme definition in a file. -/
def Theme.ofFile (files : Files) (path : String) : Except Failure Theme :=
  files.readDefinition path Theme.ofText

namespace Bundle

/-- Adds the language of a definition file. -/
def addLanguageFrom (bundle : Bundle) (files : Files) (path : String) : Except Failure Bundle :=
  (Language.ofFile files path).map bundle.addLanguage

/-- Adds the theme of a definition file. -/
def addThemeFrom (bundle : Bundle) (files : Files) (path : String) : Except Failure Bundle :=
  (Theme.ofFile files path).map bundle.addTheme

/-- Dumps the bundle to a file. -/
def dumpTo (bundle : Bundle) (files : Files) (path : String) : Except Failure Files :=
  (files.write path (.dump bundle.dump)).mapError .file

/-- The bundle that was dumped as this content. -/
def ofContent (content : Content) : Except Failure Bundle := do
  let text ← content.unpack.mapError .file
  (ofText text).mapError (.ofFault false text)

/-- The bundle that was dumped to a file. -/
def ofFile (files : Files) (path : String) : Except Failure Bundle := do
  let content ← (files.read path).mapError .file
  ofContent content

end Bundle

end HighlightBundle
