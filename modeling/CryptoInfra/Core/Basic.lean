import CryptoInfra.Wire
import Mathlib.Logic.Function.Basic

/-!
# The subscription server

The server keeps one book for every currency somebody asked for, and for every socket the currencies
it asked for. A connection thread copies what it receives into its buffer, and reads a request from
the front of the buffer: the type, and for a subscription or its cancellation the currency. Reaching
through the pointer of a book that is not there has no defined result.
-/

namespace CryptoInfra

/-! ## Requests -/

/-- The bytes of the buffer of a connection thread. -/
abbrev SocketBuffer := Fin 1024 → UInt8

/-- The four bytes of a request from an offset on. -/
def bytesAt (request : SocketBuffer) (offset : Fin 1024) : List UInt8 :=
  [request offset, request (offset + 1), request (offset + 2), request (offset + 3)]

/-- The word of a request at an offset, as the little-endian host loads it. -/
def memcpyWord (request : SocketBuffer) (offset : Fin 1024) : UInt32 :=
  UInt32.ofNat (ByteOrder.ofLittle (bytesAt request offset))

/-- The words of a request. -/
structure ReceivedData where
  /-- What the client asks for. -/
  messageType : UInt32
  /-- The currency the client asks about. -/
  currencyName : UInt32
  /-- The depth the client asks for. -/
  numLevels : UInt32

/-- Read the words of a request in host order. -/
def receivedData (request : SocketBuffer) : ReceivedData where
  messageType := osSwapHostToBigInt32 (memcpyWord request 0)
  currencyName := osSwapHostToBigInt32 (memcpyWord request 4)
  numLevels := osSwapHostToBigInt32 (memcpyWord request 8)

/-! ## The server -/

/-- The books and subscriptions which all connections share. -/
structure CoreComponent (Price : Type*) [LinearOrder Price] where
  /-- The open book of every currency. -/
  openOrderbooks : UInt32 → Option (Orderbook Price)
  /-- The currencies every socket asked for, in order of arrival. -/
  clientSubscribeList : Socket → List UInt32

namespace CoreComponent

variable {Price : Type*} [LinearOrder Price]

/-- A server without books or subscriptions. -/
def new : CoreComponent Price where
  openOrderbooks _ := none
  clientSubscribeList _ := []

/-- Call a method of the open book of a currency. -/
def withBook (currency : UInt32) (method : Orderbook Price → Orderbook Price)
    (openOrderbooks : UInt32 → Option (Orderbook Price)) :
    Option (UInt32 → Option (Orderbook Price)) :=
  (openOrderbooks currency).map fun book =>
    Function.update openOrderbooks currency (some (method book))

/-- Open an empty book for a currency. -/
def addWebsocketConnection (currencyId : UInt32) (core : CoreComponent Price) :
    CoreComponent Price :=
  { core with
    openOrderbooks :=
      Function.update core.openOrderbooks currencyId (some (Orderbook.new currencyId)) }

/-- Serve the request in the buffer of a client, and return its type. -/
def processRequest (request : SocketBuffer) (clientSocket : Socket) (core : CoreComponent Price) :
    Option (CoreComponent Price × UInt32) :=
  let data := receivedData request
  if data.messageType = 0 then
    ((core.clientSubscribeList clientSocket).foldlM
        (fun openOrderbooks currency =>
          withBook currency (Orderbook.removeClient clientSocket) openOrderbooks)
        core.openOrderbooks).map fun openOrderbooks =>
      ({ core with openOrderbooks }, data.messageType)
  else if data.messageType = 1 then
    let core := if (core.openOrderbooks data.currencyName).isNone then
        core.addWebsocketConnection data.currencyName
      else
        core
    (withBook data.currencyName (Orderbook.addClient clientSocket) core.openOrderbooks).map
      fun openOrderbooks =>
        ({ openOrderbooks
           clientSubscribeList := Function.update core.clientSubscribeList clientSocket
             (core.clientSubscribeList clientSocket ++ [data.currencyName]) }, data.messageType)
  else if data.messageType = 2 then
    ((core.clientSubscribeList clientSocket).foldlM
        (fun openOrderbooks currency =>
          if currency = data.currencyName then
            withBook currency (Orderbook.removeClient clientSocket) openOrderbooks
          else
            some openOrderbooks)
        core.openOrderbooks).map fun openOrderbooks =>
      ({ openOrderbooks
         clientSubscribeList := Function.update core.clientSubscribeList clientSocket
           ((core.clientSubscribeList clientSocket).filter (· ≠ data.currencyName)) },
        data.messageType)
  else
    some (core, data.messageType)

end CoreComponent

/-! ## Connections -/

/-- What a receiving call of a connection thread returns. -/
inductive Reception (Content : Type*) where
  | failed
  | disconnected
  | received (content : Content)

/-- Bytes which one receiving call can return: at least one, and at most one less than the buffer
holds. -/
structure Chunk where
  /-- The bytes received. -/
  bytes : List UInt8
  /-- Receiving nothing means the end of the stream. -/
  nonempty : bytes ≠ []
  /-- One byte is left for the terminator. -/
  fits : bytes.length ≤ 1023

/-- Copy received bytes to the front of a buffer and terminate them. -/
def Chunk.fill (chunk : Chunk) (socketBuffer : SocketBuffer) : SocketBuffer := fun position =>
  if _ : position.val < chunk.bytes.length then
    chunk.bytes[position.val]
  else if position.val = chunk.bytes.length then
    0
  else
    socketBuffer position

/-- What has become of a connection. -/
structure Handled (Price : Type*) [LinearOrder Price] where
  /-- The state of the server. -/
  core : CoreComponent Price
  /-- The requests served, in order. -/
  served : List SocketBuffer
  /-- The thread has closed the socket. -/
  closed : Bool

namespace CoreComponent

variable {Price : Type*} [LinearOrder Price]

/-- One round of a connection thread. It ends with a failure, with the end of the stream and with a
request of type zero. -/
def connectionRound (clientSocket : Socket) (core : CoreComponent Price) :
    Reception SocketBuffer → Option (CoreComponent Price × Bool)
  | .failed => some (core, false)
  | .disconnected => some (core, false)
  | .received socketBuffer =>
      (processRequest socketBuffer clientSocket core).map fun served => (served.1, served.2 ≠ 0)

/-- Serve what a connection receives, one request for every receiving call. -/
def connectionHandler (clientSocket : Socket) :
    SocketBuffer → List (Reception Chunk) → CoreComponent Price → Option (Handled Price)
  | _, [], core => some { core, served := [], closed := false }
  | _, .failed :: _, core => some { core, served := [], closed := true }
  | _, .disconnected :: _, core => some { core, served := [], closed := true }
  | socketBuffer, .received chunk :: receptions, core => do
      let request := chunk.fill socketBuffer
      let (core, continues) ← connectionRound clientSocket core (.received request)
      if continues then
        let handled ← connectionHandler clientSocket request receptions core
        return { handled with served := request :: handled.served }
      else
        return { core, served := [request], closed := true }

end CoreComponent

end CryptoInfra
