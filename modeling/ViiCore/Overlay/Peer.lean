import ViiCore.Overlay.PeerAuth

/-!
One end of a connection (`overlay/Peer.cpp`, `overlay/TCPPeer.cpp`).

The socket takes what is sent and hands on what was read; what is read is up to the network. The
handlers of the messages that need a completed handshake belong to other components: here they
only choose what is sent back. Timers, metrics, the address of the peer and its record in the
database are left out.
-/

namespace ViiCore.Overlay

inductive ErrorCode where
  | ERR_MISC
  | ERR_DATA
  | ERR_CONF
  | ERR_AUTH
  | ERR_LOAD
  deriving DecidableEq

structure Hello where
  ledgerVersion : UInt32
  overlayVersion : UInt32
  overlayMinVersion : UInt32
  networkID : Uint256
  versionStr : String
  listeningPort : Int
  peerID : Uint256
  cert : AuthCert
  nonce : Uint256
  deriving DecidableEq

inductive ContentType where
  | DONT_HAVE
  | GET_PEERS
  | PEERS
  | GET_TX_SET
  | TX_SET
  | TRANSACTION
  | GET_SCP_QUORUMSET
  | SCP_QUORUMSET
  | SCP_MESSAGE
  deriving DecidableEq

inductive VIIMessage (Body : Type) where
  | ERROR_MSG (code : ErrorCode) (msg : String)
  | HELLO (hello : Hello)
  | AUTH (unused : Int)
  | GET_SCP_STATE (getSCPLedgerSeq : UInt32)
  | content (type : ContentType) (body : Body)
  deriving DecidableEq

structure AuthenticatedMessage (Key Body : Type) where
  sequence : UInt64
  message : VIIMessage Body
  mac : Key
  deriving DecidableEq

/-- The order of the constructors is the order of the values. -/
inductive PeerState where
  | CONNECTING
  | CONNECTED
  | GOT_HELLO
  | GOT_AUTH
  | CLOSING
  deriving DecidableEq

def PeerState.value : PeerState → Nat
  | .CONNECTING => 0
  | .CONNECTED => 1
  | .GOT_HELLO => 2
  | .GOT_AUTH => 3
  | .CLOSING => 4

def VIIMessage.unsealed {Body : Type} : VIIMessage Body → Bool
  | .ERROR_MSG _ _ => true
  | .HELLO _ => true
  | .AUTH _ => false
  | .GET_SCP_STATE _ => false
  | .content _ _ => false

def VIIMessage.isError {Body : Type} : VIIMessage Body → Bool
  | .ERROR_MSG _ _ => true
  | .HELLO _ => false
  | .AUTH _ => false
  | .GET_SCP_STATE _ => false
  | .content _ _ => false

def VIIMessage.isAuth {Body : Type} : VIIMessage Body → Bool
  | .AUTH _ => true
  | .ERROR_MSG _ _ => false
  | .HELLO _ => false
  | .GET_SCP_STATE _ => false
  | .content _ _ => false

structure Config where
  LEDGER_PROTOCOL_VERSION : UInt32
  OVERLAY_PROTOCOL_MIN_VERSION : UInt32
  OVERLAY_PROTOCOL_VERSION : UInt32
  VERSION_STR : String
  PEER_PORT : Int
  networkID : Uint256
  /-- The public key of `NODE_SEED`. -/
  nodePublic : Uint256
  /-- `NODE_SEED.sign` -/
  sign : Uint256 → List UInt8
  toShortString : Uint256 → String

structure NodeState (Body : Type) where
  isShuttingDown : Bool
  timeNow : UInt64
  isBanned : Uint256 → Bool
  /-- `getIP().empty()` -/
  ipEmpty : Bool
  /-- Another peer of this identity is authenticated or pending. -/
  alreadyConnected : Uint256 → Bool
  acceptAuthenticatedPeer : Bool
  getLastClosedLedgerNum : UInt32
  getPeersToSend : Body
  /-- What the handler of a message sends back. -/
  answers : VIIMessage Body → List (VIIMessage Body)

structure Peer (Key Body : Type) where
  mRole : PeerRole
  mState : PeerState
  mPeerID : Option Uint256
  mSendNonce : Uint256
  mRecvNonce : Option Uint256
  mSendMacKey : Key
  mRecvMacKey : Key
  mSendMacSeq : UInt64
  mRecvMacSeq : UInt64
  mRemoteVersion : String
  mRemoteOverlayMinVersion : UInt32
  mRemoteOverlayVersion : UInt32
  /-- Whether `startRead` was called. -/
  reading : Bool
  /-- Everything that was put into the write queue. -/
  written : List (AuthenticatedMessage Key Body)
  /-- The keys, numbers and messages that authentication codes were written for. -/
  sealed : List (Key × UInt64 × VIIMessage Body)
  /-- The certified key of the remote side, once its greeting was taken. -/
  remotePublic : Option Uint256
  /-- Whether `mState` was `GOT_AUTH` at some time. -/
  reachedAuth : Bool
  /-- The messages with an authentication code that were handled without dropping the connection. -/
  handled : List (VIIMessage Body)

def MAX_SLOTS_TO_REMEMBER : UInt32 := 12

def UINT16_MAX : Int := 65535

variable {Secret Key Body : Type} [DecidableEq Key]

abbrev Encoding (Body : Type) := UInt64 → VIIMessage Body → List UInt8

namespace Peer

variable (lib : Primitives Secret Key) (encode : Encoding Body) (config : Config)
  (node : NodeState Body) (peer : Peer Key Body)

section

omit [DecidableEq Key]

/-- The constructor of `Peer`, with the call of `startRead` in `TCPPeer::accept`. -/
def create (mRole : PeerRole) (mSendNonce : Uint256) : Peer Key Body where
  mRole
  mState := if mRole = .WE_CALLED_REMOTE then .CONNECTING else .CONNECTED
  mPeerID := none
  mSendNonce
  mRecvNonce := none
  mSendMacKey := lib.zerosalt
  mRecvMacKey := lib.zerosalt
  mSendMacSeq := 0
  mRecvMacSeq := 0
  mRemoteVersion := ""
  mRemoteOverlayMinVersion := 0
  mRemoteOverlayVersion := 0
  reading := mRole = .REMOTE_CALLED_US
  written := []
  sealed := []
  remotePublic := none
  reachedAuth := false
  handled := []

def isAuthenticated : Bool := peer.mState = .GOT_AUTH

def shouldAbort : Bool := peer.mState = .CLOSING || node.isShuttingDown

def drop : Peer Key Body :=
  if peer.shouldAbort node then peer else { peer with mState := .CLOSING }

def write (amsg : AuthenticatedMessage Key Body) : Peer Key Body :=
  if peer.mState = .CLOSING then peer else { peer with written := peer.written ++ [amsg] }

def sendMessage (msg : VIIMessage Body) : Peer Key Body :=
  if msg.unsealed then peer.write { sequence := 0, message := msg, mac := lib.zerosalt }
  else
    let amsg : AuthenticatedMessage Key Body :=
      { sequence := peer.mSendMacSeq
        message := msg
        mac := lib.hmacSha256 peer.mSendMacKey (encode peer.mSendMacSeq msg) }
    let sealed :=
      if peer.mState = .CLOSING then peer.sealed
      else peer.sealed ++ [(peer.mSendMacKey, peer.mSendMacSeq, msg)]
    { peer with mSendMacSeq := peer.mSendMacSeq + 1, sealed }.write amsg

def sendErrorAndDrop (error : ErrorCode) (message : String) : Peer Key Body :=
  (peer.sendMessage lib encode (.ERROR_MSG error message)).drop node

def sendHello (auth : PeerAuth Secret Key) : PeerAuth Secret Key × Peer Key Body :=
  let certified := auth.getAuthCert lib config.sign config.networkID node.timeNow
  (certified.2,
    peer.sendMessage lib encode (.HELLO
      { ledgerVersion := config.LEDGER_PROTOCOL_VERSION
        overlayMinVersion := config.OVERLAY_PROTOCOL_MIN_VERSION
        overlayVersion := config.OVERLAY_PROTOCOL_VERSION
        versionStr := config.VERSION_STR
        networkID := config.networkID
        listeningPort := config.PEER_PORT
        peerID := config.nodePublic
        cert := certified.1
        nonce := peer.mSendNonce }))

def sendAuth : Peer Key Body := peer.sendMessage lib encode (.AUTH 0)

def sendPeers : Peer Key Body :=
  peer.sendMessage lib encode (.content .PEERS node.getPeersToSend)

/-- A connection that was dropped while it was being made is not read. -/
def connectHandler (auth : PeerAuth Secret Key) (error : Bool) :
    PeerAuth Secret Key × Peer Key Body :=
  if error then (auth, peer.drop node)
  else
    let connected := { peer with reading := peer.reading || !peer.shouldAbort node }
    { connected with mState := .CONNECTED }.sendHello lib encode config node auth

def takeHello (auth : PeerAuth Secret Key) (elo : Hello) :
    Option (PeerAuth Secret Key × Peer Key Body) :=
  match auth.getSendingMacKey lib elo.cert.pubkey peer.mSendNonce elo.nonce peer.mRole with
  | none => none
  | some (mSendMacKey, auth) =>
      match auth.getReceivingMacKey lib elo.cert.pubkey peer.mSendNonce elo.nonce peer.mRole with
      | none => none
      | some (mRecvMacKey, auth) =>
          some (auth,
            { peer with
              mRemoteOverlayMinVersion := elo.overlayMinVersion
              mRemoteOverlayVersion := elo.overlayVersion
              mRemoteVersion := elo.versionStr
              mPeerID := some elo.peerID
              mRecvNonce := some elo.nonce
              mSendMacSeq := 0
              mRecvMacSeq := 0
              mSendMacKey
              mRecvMacKey
              mState := .GOT_HELLO
              remotePublic := some elo.cert.pubkey })

def checkHello (elo : Hello) : Peer Key Body :=
  if peer.mRemoteOverlayMinVersion > peer.mRemoteOverlayVersion ∨
      peer.mRemoteOverlayVersion < config.OVERLAY_PROTOCOL_MIN_VERSION ∨
      peer.mRemoteOverlayMinVersion > config.OVERLAY_PROTOCOL_VERSION then
    peer.sendErrorAndDrop lib encode node .ERR_CONF "wrong protocol version"
  else if elo.peerID = config.nodePublic then
    peer.sendErrorAndDrop lib encode node .ERR_CONF "connecting to self"
  else if elo.networkID ≠ config.networkID then
    peer.sendErrorAndDrop lib encode node .ERR_CONF "wrong network passphrase"
  else if elo.listeningPort ≤ 0 ∨ elo.listeningPort > UINT16_MAX ∨ node.ipEmpty then
    peer.sendErrorAndDrop lib encode node .ERR_CONF "bad address"
  else if node.alreadyConnected elo.peerID then
    peer.sendErrorAndDrop lib encode node .ERR_CONF
      ("already-connected peer: " ++ config.toShortString elo.peerID)
  else if peer.mRole = .WE_CALLED_REMOTE then peer.sendAuth lib encode
  else peer

/-- Nothing is returned where the derivation of the keys throws. -/
def recvHello (auth : PeerAuth Secret Key) (elo : Hello) :
    Option (PeerAuth Secret Key × Peer Key Body) :=
  if peer.mState.value ≥ PeerState.GOT_HELLO.value then some (auth, peer.drop node)
  else if ¬ PeerAuth.verifyRemoteAuthCert lib config.networkID node.timeNow elo.peerID elo.cert then
    some (auth, peer.drop node)
  else if node.isBanned elo.peerID then some (auth, peer.drop node)
  else
    match peer.takeHello lib auth elo with
    | none => none
    | some (auth, peer) =>
        if peer.mRole = .REMOTE_CALLED_US then
          let said := peer.sendHello lib encode config node auth
          some (said.1, said.2.checkHello lib encode config node elo)
        else some (auth, peer.checkHello lib encode config node elo)

def recvAuth : Peer Key Body :=
  if peer.mState ≠ .GOT_HELLO then
    peer.sendErrorAndDrop lib encode node .ERR_MISC "out-of-order AUTH message"
  else
    let peer := { peer with mState := .GOT_AUTH, reachedAuth := true }
    let peer :=
      if peer.mRole = .REMOTE_CALLED_US then (peer.sendAuth lib encode).sendPeers lib encode node
      else peer
    if ¬ node.acceptAuthenticatedPeer then
      peer.sendErrorAndDrop lib encode node .ERR_LOAD "peer rejected"
    else
      let next := node.getLastClosedLedgerNum + 1
      let low := if next > MAX_SLOTS_TO_REMEMBER then next - MAX_SLOTS_TO_REMEMBER else 1
      peer.sendMessage lib encode (.GET_SCP_STATE low)

def answer (msg : VIIMessage Body) : Peer Key Body :=
  (node.answers msg).foldl (fun peer reply => peer.sendMessage lib encode reply) peer

def dispatch (auth : PeerAuth Secret Key) (msg : VIIMessage Body) :
    Option (PeerAuth Secret Key × Peer Key Body) :=
  if peer.shouldAbort node then some (auth, peer)
  else
    match msg with
    | .ERROR_MSG _ _ => some (auth, peer.drop node)
    | .HELLO elo => peer.recvHello lib encode config node auth elo
    | .AUTH _ => some (auth, peer.recvAuth lib encode node)
    | .GET_SCP_STATE _ | .content _ _ =>
        if ¬ peer.isAuthenticated then some (auth, peer.drop node)
        else some (auth, peer.answer lib encode node msg)

def countRecv : Peer Key Body := { peer with mRecvMacSeq := peer.mRecvMacSeq + 1 }

end

/-- `Peer::recvMessage(AuthenticatedMessage const&)`; nothing is left of the message where it is
refused. -/
def verify (msg : AuthenticatedMessage Key Body) : Option (VIIMessage Body) × Peer Key Body :=
  if peer.mState.value ≥ PeerState.GOT_HELLO.value ∧ ¬ msg.message.isError then
    if msg.sequence ≠ peer.mRecvMacSeq then
      (none, peer.countRecv.sendErrorAndDrop lib encode node .ERR_AUTH "unexpected auth sequence")
    else if ¬ lib.hmacSha256Verify msg.mac peer.mRecvMacKey (encode msg.sequence msg.message) then
      (none, peer.countRecv.sendErrorAndDrop lib encode node .ERR_AUTH "unexpected MAC")
    else (some msg.message, peer.countRecv)
  else (some msg.message, peer)

omit [DecidableEq Key] in
def note (msg : VIIMessage Body) : Peer Key Body :=
  if msg.unsealed ∨ peer.mState = .CLOSING then peer
  else { peer with handled := peer.handled ++ [msg] }

def recvMessage (auth : PeerAuth Secret Key) (msg : AuthenticatedMessage Key Body) :
    Option (PeerAuth Secret Key × Peer Key Body) :=
  if peer.shouldAbort node then some (auth, peer)
  else
    match peer.verify lib encode node msg with
    | (none, peer) => some (auth, peer)
    | (some message, peer) =>
        (peer.dispatch lib encode config node auth message).map fun after =>
          (after.1, after.2.note message)

/-- `TCPPeer::recvMessage`, on bytes that could be decoded or not. -/
def recvBytes (auth : PeerAuth Secret Key) (decoded : Option (AuthenticatedMessage Key Body)) :
    Option (PeerAuth Secret Key × Peer Key Body) :=
  match decoded with
  | none => some (auth, peer.sendErrorAndDrop lib encode node .ERR_DATA "received corrupt XDR")
  | some msg => peer.recvMessage lib encode config node auth msg

omit [DecidableEq Key] in
def coded (written : List (AuthenticatedMessage Key Body)) : List (VIIMessage Body) :=
  (written.map AuthenticatedMessage.message).filter fun msg => ¬ msg.unsealed

omit [DecidableEq Key] in
def sent : List (VIIMessage Body) := coded peer.written

end Peer

end ViiCore.Overlay
