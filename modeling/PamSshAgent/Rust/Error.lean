import PamSshAgent.Library.Fallible
import PamSshAgent.Rust.Text

/-!
# Errors

The module reports errors through `anyhow::Error`, which keeps the concrete error it was
made from: two places of the program ask what that was, by `downcast_ref`.  The model
keeps the distinction and the message of every error that the program words itself.
-/

namespace PamSshAgent

/-- `std::io::Error`, by its kind; the rest by the number and the text of the operating
system. -/
inductive IoError where
  | notFound
  | notADirectory
  | filesystemLoop
  | permissionDenied
  | wouldBlock
  | interrupted
  | timedOut (text : Text)
  | invalidData (text : Text)
  | invalidInput (text : Text)
  | other (errno : ℕ) (text : Text)
deriving DecidableEq, Repr

/-- An error of the operating system as `Display` writes it. -/
def IoError.osText (text : Text) (errno : ℕ) : Text :=
  text ++ (" (os error " : Text) ++ Nat.toDigits 10 errno ++ (")" : Text)

/-- `std::io::Error` as `Display` writes it. -/
def IoError.display : IoError → Text
  | notFound => osText "No such file or directory" 2
  | notADirectory => osText "Not a directory" 20
  | filesystemLoop => osText "Too many levels of symbolic links" 40
  | permissionDenied => osText "Permission denied" 13
  | wouldBlock => osText "Resource temporarily unavailable" 11
  | interrupted => osText "Interrupted system call" 4
  | timedOut text | invalidData text | invalidInput text => text
  | other errno text => osText text errno

/-- `ssh_agent_client_rs::Error`: the one variant the program asks for, and the others. -/
inductive SACError where
  | remoteFailure
  | other (text : Text)
deriving DecidableEq, Repr

/-- `anyhow::Error`, by the error it was made from. -/
inductive Error where
  /-- An error worded by `anyhow!`. -/
  | msg (text : Text)
  | io (error : IoError)
  | agent (error : SACError)
  /-- `std::str::Utf8Error` and `std::string::FromUtf8Error`. -/
  | utf8
  /-- `std::num::ParseIntError`. -/
  | parseInt
  /-- `signature::Error`. -/
  | signature
  /-- An error of `ssh_key`, under the context added to it. -/
  | sshKey (context : Text)
deriving DecidableEq, Repr

namespace Error

/-- An error worded by `anyhow!`, from the pieces of its format string. -/
def anyhow (pieces : List Text) : Error := .msg pieces.flatten

/-- `error.downcast_ref::<std::io::Error>()`. -/
def downcastIo : Error → Option IoError
  | .io error => some error
  | _ => none

/-- `error.downcast_ref::<SACError>()`. -/
def downcastAgent : Error → Option SACError
  | .agent error => some error
  | _ => none

end Error

end PamSshAgent
