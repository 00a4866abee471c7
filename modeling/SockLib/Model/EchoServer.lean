import SockLib.Model.Readiness
import SockLib.Model.Vectors

/-!
# The echo server

The loop of the example server: a listener, and its clients in a vector. What a client sends is
sent on to all others. The range-based `for` visits places in the vector, and takes the end of
it once, before the first client is served.
-/

namespace SockLib

structure EchoServer where
  program : World
  clientList : List Nat

abbrev EchoProg := Prog Fault Exn EchoServer

/-- What is answered while the loop is run through once: about the listener and a new client,
about the client in each place, and about what is sent on from one place to another. -/
structure EchoAnswers where
  pending : Except Int Nat
  accepted : Except Int Int
  full : Bool
  junk : Nat → Socket
  connected : NameAnswer
  greeted : List (Except Int Nat)
  ready : Nat → Except Int Nat
  name : Nat → NameAnswer
  payload : Nat → Except Int (List UInt8)
  sent : Nat → Nat → List (Except Int Nat)
  localName : Nat → NameAnswer

namespace World

variable (pl : Platform)

/-- `x.connectedAddress().name()` -/
def connectedName (x : Nat) (answer : NameAnswer) : SockProg (List UInt8) := do
  let tmp ← connectedAddress pl x answer
  Prog.ensuring (addresses (Addresses.name tmp)) (addresses (Addresses.destroy pl tmp))

/-- `(sks::IPv4Address)x.connectedAddress()` -/
def connectedIPv4 (x : Nat) (answer : NameAnswer) : SockProg Nat := do
  let tmp ← connectedAddress pl x answer
  Prog.ensuring (addresses (Addresses.castTo pl .IPv4 tmp)) (addresses (Addresses.destroy pl tmp))

/-- The loop over the clients that a message is sent on to. -/
def sendOn (l : Nat) (message : List UInt8) (answers : Nat → List (Except Int Nat)) :
    List Nat → SockProg Unit
  | [] => pure ()
  | cl :: cls => do
    if ← notEquals l cl then send pl cl message 0 (answers cl)
    sendOn l message answers cls

end World

namespace EchoServer

variable (pl : Platform) (a : EchoAnswers)

/-- An operation of the library, with a record of its own system calls. -/
def sockets {α : Type} (m : SockProg α) : EchoProg α :=
  Prog.zoom EchoServer.program (fun w s => { s with program := w }) do
    Prog.modify SocketOp.start
    m

def caught (m : EchoProg Unit) : EchoProg Unit := Prog.tryCatch m fun _ => pure ()

def motd_message : List UInt8 := bytes "Echo Serv Telnet Example\r\n"

/-- The first half of the loop. What is printed is left out. -/
def acceptClient (master_socket : Nat) : EchoProg Unit := caught do
  if ← sockets (World.ready pl master_socket pl.POLLIN 0 a.pending) then
    let peer ← sockets (World.accept pl master_socket a.accepted)
    let xs ← Prog.gets EchoServer.clientList
    let ys ← sockets (World.pushBack pl xs peer a.full a.junk a.localName)
    Prog.modify fun s => { s with clientList := ys }
    sockets (World.destroy pl peer (.error 0))
    let lastConnectedClient ← Prog.demand ys.getLast? .danglingPointer
    let info ← sockets (World.connectedIPv4 pl lastConnectedClient a.connected)
    Prog.ensuring (sockets (World.send pl lastConnectedClient motd_message 0 a.greeted))
      (sockets (World.addresses (Addresses.destroyObject pl info)))

/-- The client in one place is served. -/
def serve (l : Nat) : EchoProg Unit := caught do
  if ← sockets (World.ready pl l pl.POLLIN 0 (a.ready l)) then
    let _ ← sockets (World.connectedName pl l (a.name l))
    let message ← sockets (World.receive pl l 0x10000 0 (a.payload l))
    let xs ← Prog.gets EchoServer.clientList
    if message.isEmpty then
      let ys ← sockets (World.eraseRemove pl l xs a.localName)
      Prog.modify fun s => { s with clientList := ys }
    else sockets (World.sendOn pl l message (a.sent l) xs)

def serveAll : List Nat → EchoProg Unit
  | [] => pure ()
  | l :: ls => do
    serve pl a l
    serveAll ls

/-- The second half of the loop. -/
def serveClients : EchoProg Unit := do
  let xs ← Prog.gets EchoServer.clientList
  serveAll pl a xs

end EchoServer

/-- The two halves of the loop. -/
inductive EchoOp where
  | acceptClient (a : EchoAnswers)
  | serveClients (a : EchoAnswers)

def EchoOp.exec (pl : Platform) (master_socket : Nat) : EchoOp → EchoProg Unit
  | .acceptClient a => EchoServer.acceptClient pl a master_socket
  | .serveClients a => EchoServer.serveClients pl a

def EchoOp.step (pl : Platform) (master_socket : Nat) (s : EchoServer) (op : EchoOp) :
    Option EchoServer := (op.exec pl master_socket s).resume

end SockLib
