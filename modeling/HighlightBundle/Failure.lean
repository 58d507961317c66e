import HighlightBundle.Json.Fault

/-!
# Failures

Everything that can go wrong for a user of a bundle: a file cannot be had, a definition cannot be
read, an id is not in the bundle, or the engine fails. Each failure has a message, and all but a
missing id have a source, which is the part of the message that comes from further down.

A definition file that can be opened but gives nothing to read, a directory, fails in the reader
of its text: that is `unreadable`, and no line belongs to it.
-/

namespace HighlightBundle

/-- The two kinds of assets. -/
inductive AssetKind where
  | language
  | theme
deriving DecidableEq

namespace AssetKind

/-- The word for the kind. -/
def noun : AssetKind → String
  | language => "language"
  | theme => "theme"

/-- The word for the kind at the start of a sentence. -/
def title : AssetKind → String
  | language => "Language"
  | theme => "Theme"

end AssetKind

/-- Why a file cannot be had. -/
inductive FileFailure where
  | missing
  | notDirectory
  | isDirectory
  | nameTooLong
  | nulInName
  /-- The bytes begin as a compressed frame does, but are not all of one. -/
  | incompleteFrame
  /-- The bytes are no compressed frame. -/
  | unknownFrame
deriving DecidableEq

namespace FileFailure

/-- The wording of the failure. -/
def message : FileFailure → String
  | missing => "No such file or directory (os error 2)"
  | notDirectory => "Not a directory (os error 20)"
  | isDirectory => "Is a directory (os error 21)"
  | nameTooLong => "File name too long (os error 36)"
  | nulInName => "file name contained an unexpected NUL byte"
  | incompleteFrame => "incomplete frame"
  | unknownFrame => "Unknown frame descriptor"

end FileFailure

/-- Why an engine fails. -/
inductive EngineFailure where
  | creationFailed
  | notLoaded (kind : AssetKind) (name : String)
  | unnamedTheme
deriving DecidableEq

namespace EngineFailure

/-- The wording of the failure. -/
def message : EngineFailure → String
  | creationFailed => "creation failed"
  | notLoaded kind name => s!"{kind.noun} `{name}` is not loaded"
  | unnamedTheme => "theme has no name"

end EngineFailure

/-- What can go wrong. -/
inductive Failure where
  /-- A file cannot be had. -/
  | file (cause : FileFailure)
  /-- A definition file was opened but cannot be read. -/
  | unreadable (cause : FileFailure)
  /-- A text is not what it should be. -/
  | json (cause : Json.Cause) (line : Nat)
  /-- An id was requested that the bundle does not contain. -/
  | notBundled (kind : AssetKind) (id : String)
  /-- The engine failed. -/
  | engine (cause : EngineFailure)
deriving DecidableEq

namespace Failure

/-- What the failure comes from. -/
def source? : Failure → Option String
  | file cause | unreadable cause => some cause.message
  | json cause _ => some cause.message
  | notBundled _ _ => none
  | engine cause => some cause.message

/-- The wording of the failure. -/
def message : Failure → String
  | file cause => s!"I/O error: {cause.message}"
  | unreadable cause => s!"JSON parsing error: {cause.message}"
  | json cause _ => s!"JSON parsing error: {cause.message}"
  | notBundled kind id =>
    s!"{kind.title} `{id}` is not included in this bundle. "
      ++ "You may want to load it from an external source."
  | engine cause => s!"engine error: {cause.message}"

/-- The failure that a fault in a whole text is. -/
def ofFault (streamed : Bool) (whole : Text) (fault : Json.Fault) : Failure :=
  .json fault.cause (fault.line streamed whole)

end Failure

end HighlightBundle
