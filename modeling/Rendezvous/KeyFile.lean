import Rendezvous.Entropy

/-!
Key files: a secret key as hexadecimal text, on a line of its own. Of several files the first that is
no key file is reported (`loadAll_cons_of_error`), and a file that is there is never written over
(`generate_some`).
-/

namespace Rendezvous

/-- Why a key file cannot be read or written. -/
inductive KeyFileError where
  /-- The file is missing, or is not text. -/
  | unreadable
  /-- There is a file already where one is to be written. -/
  | occupied
  /-- The text is not a key. -/
  | badKey (reason : CodecError)
  deriving DecidableEq, Repr

namespace KeyFile

/-- Reads the contents of a file, if there is one. -/
def load (contents : Option Bytes) : Except KeyFileError KeyPair :=
  match contents.bind Text.ofUtf8? with
  | none => .error .unreadable
  | some text => (KeyPair.ofHex text).mapError .badKey

/-- Reads files in order, up to the first that fails. -/
def loadAll (files : List (Option Bytes)) : Except KeyFileError (List KeyPair) :=
  files.mapM load

/-- The contents of the file of a pair. -/
def write (keys : KeyPair) : String :=
  Hex.encode keys.secretKey.octets.toList ++ "\n"

/-- Draws a fresh pair, and gives the contents of its file. A file that is already there is kept. -/
def generate (existing : Option Bytes) (e : Entropy) : Except KeyFileError (KeyPair × String) :=
  match existing with
  | some _ => .error .occupied
  | none =>
    let keys := e.drawKeyPair.1
    .ok (keys, write keys)

theorem loadAll_cons_of_error {file : Option Bytes} {e : KeyFileError} (h : load file = .error e)
    (files : List (Option Bytes)) : loadAll (file :: files) = .error e := by
  simp [loadAll, List.mapM_cons, h, bind, Except.bind]

theorem generate_some (contents : Bytes) (e : Entropy) :
    generate (some contents) e = .error .occupied := rfl

end KeyFile

end Rendezvous
