import TwitchChatWorker.Lib.Descriptors

/-!
The socket objects.  The answers of the system calls are inputs of the members
that make them; the system keeps the descriptors that it has given out.
-/

namespace TwitchChatWorker.Sockets

open TwitchChatWorker.Lib.Descriptors

def INVALID_SOCKET : Int := -1

/-- `Status` of an operation. -/
inductive Status where
  | done
  | notReady
  | partialSent
  | disconnected
  | error
deriving DecidableEq

/-- The errors that are told apart. -/
inductive Errno where
  | again
  | inProgress
  | wouldBlock
  | connAborted
  | connReset
  | timedOut
  | netReset
  | notConn
  | pipe
  | other
deriving DecidableEq

def getErrorStatus (errno : Errno) : Status :=
  if errno = .again ∨ errno = .inProgress then .notReady
  else
    match errno with
    | .wouldBlock => .notReady
    | .connAborted => .disconnected
    | .connReset => .disconnected
    | .timedOut => .disconnected
    | .netReset => .disconnected
    | .notConn => .disconnected
    | .pipe => .disconnected
    | _ => .error

/-- The handle and the mode. -/
structure Socket where
  sock : Int := INVALID_SOCKET
  blocking : Bool := false
deriving DecidableEq

/-- The objects of the three classes, each class with its own numbers. -/
inductive ObjectId where
  | tcpSocket (n : Nat)
  | udpSocket (n : Nat)
  | tcpListener (n : Nat)
deriving DecidableEq

/-- The sockets of the process and its descriptors. -/
structure Process where
  sockets : ObjectId → Socket := fun _ => {}
  descriptors : Ledger Int := []

namespace Process

def getHandle (p : Process) (o : ObjectId) : Int := (p.sockets o).sock

def isBlocking (p : Process) (o : ObjectId) : Bool := (p.sockets o).blocking

def update (p : Process) (o : ObjectId) (socket : Socket) : Process :=
  { p with sockets := Function.update p.sockets o socket }

/-- The mode of the descriptor itself is set along with the member. -/
def setBlocking (p : Process) (o : ObjectId) (block : Bool) : Process :=
  p.update o { p.sockets o with blocking := block }

/-- `Socket::create(HANDLE fd)` -/
def createFrom (p : Process) (o : ObjectId) (fd : Int) : Process :=
  if p.getHandle o = INVALID_SOCKET then
    (p.update o { p.sockets o with sock := fd }).setBlocking o (p.isBlocking o)
  else p

/-- A descriptor that a system call answers is a new one. -/
def obtained (p : Process) (fd : Int) : Process :=
  { p with descriptors := p.descriptors.obtain fd }

/-- `Socket::create()`, where `socket` is what the system call answers. -/
def create (p : Process) (o : ObjectId) (socket : Int) : Process :=
  if p.getHandle o = INVALID_SOCKET then
    if socket = INVALID_SOCKET then p else (p.obtained socket).createFrom o socket
  else p

/-- `::close(fd)` -/
def closed (p : Process) (fd : Int) : Process :=
  { p with descriptors := p.descriptors.close fd }

/-- As in the source, for a socket without a handle alone. -/
def close (p : Process) (o : ObjectId) : Process :=
  if p.getHandle o = INVALID_SOCKET then
    (p.closed (p.getHandle o)).update o { p.sockets o with sock := INVALID_SOCKET }
  else p

/-- `peer` is the address that the system has for the other end. -/
def getRemoteAddress (p : Process) (o : ObjectId) (peer : Option String) : String :=
  if p.getHandle o = INVALID_SOCKET then "" else peer.getD ""

/-- What the system calls of a connect answer: `errno` is read after the wait. -/
structure Connecting where
  socket : Int
  connect : Option Errno
  select : Int
  peer : Option String
  errno : Errno
deriving DecidableEq

def disconnect (p : Process) (n : Nat) : Process := p.close (.tcpSocket n)

def connect (p : Process) (n : Nat) (ms : Int) (answers : Connecting) : Status × Process :=
  let p := (p.disconnect n).create (.tcpSocket n) answers.socket
  if ms ≤ 0 then
    match answers.connect with
    | some errno => (getErrorStatus errno, p)
    | none => (.done, p)
  else
    let blocking := p.isBlocking (.tcpSocket n)
    let p := if blocking then p.setBlocking (.tcpSocket n) false else p
    match answers.connect with
    | none => (.done, p.setBlocking (.tcpSocket n) blocking)
    | some errno =>
        let status := getErrorStatus errno
        if !blocking then (status, p)
        else
          let status :=
            if status = .notReady then
              if 0 < answers.select then
                if p.getRemoteAddress (.tcpSocket n) answers.peer ≠ "" then .done
                else getErrorStatus answers.errno
              else getErrorStatus answers.errno
            else status
          (status, p.setBlocking (.tcpSocket n) true)

structure Binding where
  socket : Int
  bound : Bool
deriving DecidableEq

def bind (p : Process) (n : Nat) (address : String) (answers : Binding) : Status × Process :=
  let p := (p.close (.udpSocket n)).create (.udpSocket n) answers.socket
  if address = "" then (.error, p)
  else if answers.bound then (.done, p)
  else (.error, p)

def unbind (p : Process) (n : Nat) : Process := p.close (.udpSocket n)

def MAX_DATAGRAM_SIZE : Nat := 65507

structure Sending where
  socket : Int
  sent : Option Errno
deriving DecidableEq

def send (p : Process) (n : Nat) (size : Nat) (answers : Sending) : Status × Process :=
  let p := p.create (.udpSocket n) answers.socket
  if MAX_DATAGRAM_SIZE < size then (.error, p)
  else
    match answers.sent with
    | some errno => (getErrorStatus errno, p)
    | none => (.done, p)

structure Listening where
  socket : Int
  bound : Bool
  listening : Bool
deriving DecidableEq

def listen (p : Process) (n : Nat) (address : String) (answers : Listening) : Status × Process :=
  let p := (p.close (.tcpListener n)).create (.tcpListener n) answers.socket
  if address = "" then (.error, p)
  else if !answers.bound then (.error, p)
  else if !answers.listening then (.error, p)
  else (.done, p)

structure Accepting where
  remote : Int
  errno : Errno
deriving DecidableEq

def accept (p : Process) (n : Nat) (socket : Nat) (answers : Accepting) : Status × Process :=
  if p.getHandle (.tcpListener n) = INVALID_SOCKET then (.error, p)
  else if answers.remote = INVALID_SOCKET then (getErrorStatus answers.errno, p)
  else
    let p := p.obtained answers.remote
    (.done, (p.close (.tcpSocket socket)).createFrom (.tcpSocket socket) answers.remote)

/-- A new descriptor is not open yet. -/
def MayAnswer (p : Process) (fd : Int) : Prop :=
  fd = INVALID_SOCKET ∨ (0 ≤ fd ∧ ¬p.descriptors.IsOpen fd)

instance (p : Process) : DecidablePred p.MayAnswer := fun _ => inferInstanceAs (Decidable (_ ∨ _))

end Process

open Process

/-- The calls of the network classes, with what the system answers. -/
inductive Call where
  | connect (n : Nat) (ms : Int) (answers : Connecting)
  | disconnect (n : Nat)
  | bind (n : Nat) (address : String) (answers : Binding)
  | unbind (n : Nat)
  | send (n : Nat) (size : Nat) (answers : Sending)
  | listen (n : Nat) (address : String) (answers : Listening)
  | accept (n : Nat) (socket : Nat) (answers : Accepting)
  | close (o : ObjectId)
  | setBlocking (o : ObjectId) (block : Bool)
deriving DecidableEq

/-- The system call behind the call can answer so. -/
def Call.Possible (p : Process) : Call → Prop
  | .connect n _ answers => (p.disconnect n).MayAnswer answers.socket
  | .bind n _ answers => (p.close (.udpSocket n)).MayAnswer answers.socket
  | .send _ _ answers => p.MayAnswer answers.socket
  | .listen n _ answers => (p.close (.tcpListener n)).MayAnswer answers.socket
  | .accept _ _ answers => p.MayAnswer answers.remote
  | _ => True

instance (p : Process) : DecidablePred (Call.Possible p)
  | .connect _ _ _ | .bind _ _ _ | .send _ _ _ | .listen _ _ _ | .accept _ _ _ =>
      inferInstanceAs (Decidable (MayAnswer _ _))
  | .disconnect _ | .unbind _ | .close _ | .setBlocking _ _ => inferInstanceAs (Decidable True)

def Call.run (p : Process) : Call → Process
  | .connect n ms answers => (p.connect n ms answers).2
  | .disconnect n => p.disconnect n
  | .bind n address answers => (p.bind n address answers).2
  | .unbind n => p.unbind n
  | .send n size answers => (p.send n size answers).2
  | .listen n address answers => (p.listen n address answers).2
  | .accept n socket answers => (p.accept n socket answers).2
  | .close o => p.close o
  | .setBlocking o block => p.setBlocking o block

def step (p : Process) (call : Call) : Option Process :=
  if call.Possible p then some (call.run p) else none

end TwitchChatWorker.Sockets
