/-!
# Errors of the system

Trying what the operating system may refuse, and the wordings of the errors that it reports: its
own words and its number.
-/

namespace ObjectBus.CommandLine

/-- Try something. Gives the error if it fails. -/
def attempt (action : IO α) : IO (Except IO.Error α) := do
  try
    pure (.ok (← action))
  catch e => pure (.error e)

/-- The system's words for its errors. -/
def systemWords : List (Nat × String) :=
  [(1, "Operation not permitted"), (2, "No such file or directory"),
    (4, "Interrupted system call"), (5, "Input/output error"), (12, "Cannot allocate memory"),
    (13, "Permission denied"), (17, "File exists"), (20, "Not a directory"),
    (21, "Is a directory"), (22, "Invalid argument"), (23, "Too many open files in system"),
    (24, "Too many open files"), (27, "File too large"), (28, "No space left on device"),
    (30, "Read-only file system"), (32, "Broken pipe"), (36, "File name too long"),
    (40, "Too many levels of symbolic links"), (97, "Address family not supported by protocol"),
    (98, "Address already in use"), (99, "Cannot assign requested address"),
    (100, "Network is down"), (101, "Network is unreachable"),
    (103, "Software caused connection abort"), (104, "Connection reset by peer"),
    (105, "No buffer space available"), (110, "Connection timed out"),
    (111, "Connection refused"), (112, "Host is down"), (113, "No route to host")]

/-- The words for names that cannot be resolved. -/
def resolverWords : List (Nat × String) :=
  [(3001, "Temporary failure in name resolution"),
    (3004, "Non-recoverable failure in name resolution"), (3006, "Memory allocation failure"),
    (3007, "No address associated with hostname"), (3008, "Name or service not known"),
    (3010, "Servname not supported for ai_socktype")]

/-- The wording of an error by its number, if it has one. -/
def numberedMessage? (n : Nat) : Option String :=
  match systemWords.lookup n, resolverWords.lookup n with
  | some words, _ => some (words ++ " (os error " ++ toString n ++ ")")
  | none, some words => some ("failed to lookup address information: " ++ words)
  | none, none => none

/-- A code as a positive number. Codes of a network are negative numbers in 32 bits. -/
def magnitude (code : UInt32) : Nat :=
  if code.toNat < UInt32.size / 2 then code.toNat else UInt32.size - code.toNat

/-- The number of an error, without its sign, if the system gave one. -/
def errorNumber? : IO.Error → Option Nat
  | .alreadyExists _ code _ => some (magnitude code)
  | .otherError code _ => some (magnitude code)
  | .resourceBusy code _ => some (magnitude code)
  | .resourceVanished code _ => some (magnitude code)
  | .unsupportedOperation code _ => some (magnitude code)
  | .hardwareFault code _ => some (magnitude code)
  | .unsatisfiedConstraints code _ => some (magnitude code)
  | .illegalOperation code _ => some (magnitude code)
  | .protocolError code _ => some (magnitude code)
  | .timeExpired code _ => some (magnitude code)
  | .interrupted _ code _ => some (magnitude code)
  | .noFileOrDirectory _ code _ => some (magnitude code)
  | .invalidArgument _ code _ => some (magnitude code)
  | .permissionDenied _ code _ => some (magnitude code)
  | .resourceExhausted _ code _ => some (magnitude code)
  | .inappropriateType _ code _ => some (magnitude code)
  | .noSuchThing _ code _ => some (magnitude code)
  | .unexpectedEof => none
  | .userError _ => none

/-- The wording of an error of the system. -/
def systemMessage (e : IO.Error) : String :=
  match e, errorNumber? e with
  | .userError message, _ => message
  | _, some n => (numberedMessage? n).getD (toString e)
  | _, none => toString e

end ObjectBus.CommandLine
