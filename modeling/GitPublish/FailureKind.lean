import GitPublish.Text

/-!
# What kind of failure a command reports

A command that fails says why on its error output, in words of its own. The kind of failure is read
off phrases in that text, without regard to case; where phrases of several kinds occur, the kinds
have an order of precedence. The order matters: "permission denied (publickey)" is a failure of
authentication, and "permission denied (os error 13)" one of the file system.
-/
namespace GitPublish

inductive FailureKind where
  | network
  | authentication
  | notFound
  | conflict
  | permission
  | invalidRef
  | unknown
  deriving DecidableEq, Repr

namespace FailureKind

/-- The kinds that have phrases, those that take precedence first. -/
def precedence : List FailureKind :=
  [network, permission, authentication, notFound, conflict, invalidRef]

def phrases : FailureKind → List String
  | network =>
    ["could not resolve host", "connection timed out", "network is unreachable",
      "failed to connect", "connection refused", "connection closed by remote host"]
  | permission => ["os error", "unable to create", "read-only", "cannot open"]
  | authentication =>
    ["permission denied", "publickey", "host key verification failed", "authentication failed",
      "could not read from remote repository"]
  | notFound =>
    ["does not exist", "not found", "did not match any file", "couldn't find remote ref",
      "no such"]
  | conflict => ["non-fast-forward", "rejected", "failed to push some refs", "conflict"]
  | invalidRef => ["not a valid branch name", "invalid ref", "bad revision", "ambiguous argument"]
  | unknown => []

/-- Whether a lowered text has a phrase of this kind. -/
def isTold (lowered : List Char) (kind : FailureKind) : Bool :=
  kind.phrases.any fun phrase => Text.contains phrase.toList lowered

/-- The kind of failure that an output of this lower case form tells. -/
def told (low : List Char) : FailureKind := (precedence.find? (isTold low)).getD unknown

def ofOutput (text : String) : FailureKind := told (Text.lowered text.toList)

/-- Whether the same command may succeed later without any change. -/
def isTransient (kind : FailureKind) : Bool := kind == network

def label : FailureKind → String
  | network => "network error"
  | authentication => "authentication error"
  | notFound => "not found"
  | conflict => "conflict"
  | permission => "permission denied"
  | invalidRef => "invalid reference"
  | unknown => "unknown error"

def hint : FailureKind → String
  | network =>
    "Check network connectivity to the git host and that the URL is correct. " ++
      "This error may be transient."
  | authentication =>
    "Verify the SSH key has access to the repository (--ssh-key or " ++
      "git.private_ssh_key_path) and that the host key is known."
  | notFound => "Verify the repository URL and that the branch exists, or use --bootstrap."
  | conflict => "The remote moved while the change was being prepared. Run the write-back again."
  | permission => "Check file and directory permissions of the clone directory."
  | invalidRef => "Check the branch name for invalid characters."
  | unknown => "Inspect the git output above for details."

end FailureKind

/-- Some lines in one; where there are none, that is said. -/
def barred : List (List Char) → String
  | [] => "no error output"
  | lines => " | ".intercalate (lines.map String.ofList)

/-- An error output in one line: its first three telling lines. -/
def summary (text : String) : String := barred ((Text.telling text.toList).take 3)

end GitPublish
