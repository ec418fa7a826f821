import Rendezvous.Configuration.Basic

/-!
The command line. The relay is run, with options that go before its configuration file, or a key file is
written.
-/

namespace Rendezvous

/-- What the program is asked to do. -/
inductive Command where
  /-- Run the relay with a configuration file, perhaps on another address, and with further key files. -/
  | serve (configuration : String) (bind : Option String) (keys : List String)
  /-- Write a fresh key to a file that is not there yet. -/
  | generate (file : String)
  /-- Show how the program is used. -/
  | help
  deriving DecidableEq, Repr

/-- Why a command line is not understood. -/
inductive CommandError where
  | noCommand
  | unknownCommand (name : String)
  | unexpected (argument : String)
  | missingValue (option : String)
  | missingFile
  deriving DecidableEq, Repr

def CommandError.message : CommandError → String
  | .noCommand => "a command is required"
  | .unknownCommand name => "unknown command '" ++ name ++ "'"
  | .unexpected argument => "unexpected argument '" ++ argument ++ "'"
  | .missingValue option => "a value is required for '" ++ option ++ "'"
  | .missingFile => "an output file is required"

namespace Command

/-- How the program is used. -/
def usage : String :=
  "usage: rendezvous serve [--config FILE] [--bind ADDRESS] [--key FILE]...\n" ++
  "       rendezvous generate FILE"

/-- The configuration file that is read if no other is named. -/
def defaultConfiguration : String := "relay.toml"

/-- An option and its value in one argument. -/
def splitOption (argument : String) : List String :=
  let (name, rest) := argument.toList.span (· != '=')
  if argument.startsWith "--" && !rest.isEmpty then [String.ofList name, String.ofList rest.tail]
  else [argument]

/-- Reads the options for running the relay behind those already read. -/
def serveOptions (configuration : String) (bind : Option String) (keys : List String) :
    List String → Except CommandError Command
  | [] => .ok (.serve configuration bind keys)
  | "--config" :: file :: rest | "-c" :: file :: rest => serveOptions file bind keys rest
  | "--bind" :: address :: rest => serveOptions configuration (some address) keys rest
  | "--key" :: file :: rest => serveOptions configuration bind (keys ++ [file]) rest
  | [argument] =>
    if ["--config", "-c", "--bind", "--key"].contains argument then .error (.missingValue argument)
    else .error (.unexpected argument)
  | argument :: _ => .error (.unexpected argument)

def parse : List String → Except CommandError Command
  | [] => .error .noCommand
  | "--help" :: _ | "-h" :: _ | "help" :: _ => .ok .help
  | "serve" :: rest => serveOptions defaultConfiguration none [] (rest.flatMap splitOption)
  | ["generate", file] => .ok (.generate file)
  | ["generate"] => .error .missingFile
  | "generate" :: _ :: argument :: _ => .error (.unexpected argument)
  | name :: _ => .error (.unknownCommand name)

/-- The configuration for running the relay, with what the command line adds to it. -/
def configure (c : Configuration) (bind : Option String) (keys : List String) : Configuration :=
  { c with
    server := { c.server with bindAddress := bind.getD c.server.bindAddress }
    keys := { c.keys with permanent := c.keys.permanent ++ keys } }

end Command

end Rendezvous
