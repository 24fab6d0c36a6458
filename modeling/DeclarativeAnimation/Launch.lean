import DeclarativeAnimation.Client

/-! Finding a service to work with.  One that answers at an address given in advance, or at the
    host and socket asked for, is attached to; otherwise a new one is started. -/
namespace DeclarativeAnimation
variable {A : Arithmetic}

/-- An address without blanks around it and slashes at its end.  Without a scheme it is taken
    for a host. -/
def baseUrl (url : String) : String :=
  let text := Text.trim url.toList
  if text.isEmpty then ""
  else
    let scheme := if Text.occurs "://".toList text then [] else "http://".toList
    String.ofList (trimSlashes (scheme ++ text))

def baseUrlOf (v : Value A) : Except Fault String :=
  match v with
  | .text s => .ok (baseUrl s)
  | _ => .error (.noMember v.typeName "strip")

structure LaunchOptions (A : Arithmetic) where
  host : Value A := .text "127.0.0.1"
  /-- The number of the socket to serve at; zero stands for any free one. -/
  socket : Value A := .int 0
  alwaysStart : Bool := false
  /-- How many seconds a service has to show that it is there. -/
  patience : Value A := .number 0.2

inductive Launched (A : Arithmetic) where
  | attached (client : Client)
  | started (host socket : Value A)
  | startedAnywhere (host : Value A)

structure Launch (A : Arithmetic) where
  probed : List String
  launched : Launched A

namespace Launch

def hostUrl (host socket : Value A) : String :=
  "http://" ++ host.asText ++ ":" ++ socket.asText

def announcement (host socket : Value A) : String := hostUrl host socket ++ "/"

/-- Whether an answer comes from a service; it has to be a plain success. -/
def isAlive : Answer A → Except Fault Bool
  | .received 200 body _ => Answer.saysOk body
  | _ => .ok false

def find (probe : String → Answer A) : List String → Except Fault (List String × Option String)
  | [] => .ok ([], none)
  | url :: rest => do
    if ← isAlive (probe url) then return ([url], some url)
    let (probed, found) ← find probe rest
    return (url :: probed, found)

def choosesSocket (options : LaunchOptions A) : Bool := options.socket == .int 0

def candidates (advised : String) (options : LaunchOptions A) : List String :=
  let advised := baseUrl advised
  if options.alwaysStart then []
  else
    (if advised = "" then [] else [advised])
      ++ (if choosesSocket options || !options.socket.isSpellable then []
        else [baseUrl (hostUrl options.host options.socket)])

def run (advised : String) (options : LaunchOptions A) (probe : String → Answer A) :
    Except Fault (Launch A) := do
  let (probed, found) ← find probe (candidates advised options)
  match found with
  | some url => return ⟨probed, .attached (Client.ofUrl url)⟩
  | none =>
    if choosesSocket options then return ⟨probed, .startedAnywhere options.host⟩
    else options.socket.spelling ⟨probed, .started options.host options.socket⟩

end Launch
end DeclarativeAnimation
