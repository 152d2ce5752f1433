import Mathlib.Logic.Function.Basic
import ViiCore.Crypto.StrKey
import ViiCore.Library.FiniteMap
import ViiCore.Library.Sorting
import ViiCore.Overlay.Peer

/-!
The connections of a node (`overlay/OverlayManagerImpl.cpp`, `TCPPeer::drop`).

A connection is listed as pending under its address in memory, and once it is authenticated under
the key of the other side. Both lists exist for each direction. What a connection does with a
message is `Peer.recvBytes`; here it is given what it reads of the lists, and the lists follow what
becomes of it. Metrics, the records of peers in the database and the end of the node are left out.
-/

namespace ViiCore.Overlay

open FiniteMap (Map)

abbrev NodeID := Uint256

/-- The key of a connection that no greeting was taken from. -/
def NodeID.default : NodeID := ⟨List.replicate 32 0, rfl⟩

inductive PeerBareAddress where
  | EMPTY
  | IPv4 (ip : String) (port : UInt16)
  deriving DecidableEq

/-- Nothing for an address that is empty. -/
def PeerBareAddress.getIP : PeerBareAddress → String
  | .EMPTY => ""
  | .IPv4 ip _ => ip

/-- The limits of a configuration, after `Config::adjust`. -/
structure ConnectionLimits where
  TARGET_PEER_CONNECTIONS : UInt16
  MAX_ADDITIONAL_PEER_CONNECTIONS : UInt16
  MAX_INBOUND_PENDING_CONNECTIONS : UInt16
  MAX_OUTBOUND_PENDING_CONNECTIONS : UInt16
  PREFERRED_PEERS_ONLY : Bool
  PREFERRED_PEER_KEYS : List (List UInt8)

def POSSIBLY_PREFERRED_EXTRA : Nat := 2

structure Application (Secret Key Body : Type) where
  lib : Primitives Secret Key
  encode : Encoding Body
  config : Config
  limits : ConnectionLimits

variable {Conn Secret Key Body : Type} [DecidableEq Conn]

structure Connection (Key Body : Type) where
  peer : Peer Key Body
  mAddress : PeerBareAddress

/-! ### The lists of one direction -/

/-- Connections are told apart by their address in memory. -/
structure PeersList (Conn : Type) where
  mMaxAuthenticatedCount : Nat
  mPending : List Conn
  mAuthenticated : Map NodeID Conn

namespace PeersList

variable (list : PeersList Conn)

omit [DecidableEq Conn] in
def authenticatedCount : Nat := list.mAuthenticated.keys.length

def removePeer (peer : Conn) (getPeerID : NodeID) : PeersList Conn :=
  if peer ∈ list.mPending then { list with mPending := list.mPending.erase peer }
  else if getPeerID ∈ list.mAuthenticated then
    { list with mAuthenticated := list.mAuthenticated.erase getPeerID }
  else list

def moveToAuthenticated (peer : Conn) (getPeerID : NodeID) : PeersList Conn × Bool :=
  if peer ∉ list.mPending then (list, false)
  else if getPeerID ∈ list.mAuthenticated then (list, false)
  else
    ({ list with
        mPending := list.mPending.erase peer
        mAuthenticated := list.mAuthenticated.insert getPeerID peer }, true)

omit [DecidableEq Conn] in
def inOrder : List (Sigma fun _ : NodeID => Conn) :=
  list.mAuthenticated.entries.insertionSort fun left right =>
    ¬ right.1.bytes < left.1.bytes

omit [DecidableEq Conn] in
theorem mem_inOrder {id : NodeID} {peer : Conn} (member : ⟨id, peer⟩ ∈ list.inOrder) :
    list.mAuthenticated.lookup id = some peer := by
  unfold inOrder at member
  rw [(List.perm_insertionSort _ _).mem_iff] at member
  exact AList.mem_lookup_iff.mpr member

end PeersList

/-! ### The manager -/

structure OverlayManager (Conn Secret Key Body : Type) where
  mConfigurationPreferredPeers : List PeerBareAddress
  mInboundPeers : PeersList Conn
  mOutboundPeers : PeersList Conn
  mAuth : PeerAuth Secret Key
  /-- The connections that were added, whatever became of them. -/
  connections : Conn → Option (Connection Key Body)

namespace Connection

variable (connection : Connection Key Body)

def getPeerID : NodeID := connection.peer.mPeerID.getD NodeID.default

def setPeer (peer : Peer Key Body) : Connection Key Body := { connection with peer }

end Connection

namespace OverlayManager

variable (app : Application Secret Key Body) (overlay : OverlayManager Conn Secret Key Body)

section

omit [DecidableEq Conn]

def create (mAuth : PeerAuth Secret Key) : OverlayManager Conn Secret Key Body where
  mConfigurationPreferredPeers := []
  mInboundPeers :=
    { mMaxAuthenticatedCount := app.limits.MAX_ADDITIONAL_PEER_CONNECTIONS.toNat
      mPending := []
      mAuthenticated := ∅ }
  mOutboundPeers :=
    { mMaxAuthenticatedCount := app.limits.TARGET_PEER_CONNECTIONS.toNat
      mPending := []
      mAuthenticated := ∅ }
  mAuth
  connections _ := none

def getPeersList : PeerRole → PeersList Conn
  | .WE_CALLED_REMOTE => overlay.mOutboundPeers
  | .REMOTE_CALLED_US => overlay.mInboundPeers

def setPeersList (role : PeerRole) (list : PeersList Conn) : OverlayManager Conn Secret Key Body :=
  match role with
  | .WE_CALLED_REMOTE => { overlay with mOutboundPeers := list }
  | .REMOTE_CALLED_US => { overlay with mInboundPeers := list }

def isPreferred (connection : Connection Key Body) : Bool :=
  connection.mAddress ∈ overlay.mConfigurationPreferredPeers ∨
    connection.peer.isAuthenticated ∧
      KeyUtils.toStrKey (⟨connection.getPeerID⟩ : KeyUtils.PublicKey) ∈ app.limits.PREFERRED_PEER_KEYS

def isPossiblyPreferred (ip : String) : Bool :=
  overlay.mConfigurationPreferredPeers.any fun address => address.getIP = ip

end

def removePeer (conn : Conn) (connection : Connection Key Body) :
    OverlayManager Conn Secret Key Body :=
  let list := overlay.getPeersList connection.peer.mRole
  overlay.setPeersList connection.peer.mRole (list.removePeer conn connection.getPeerID)

def setConnection (conn : Conn) (connection : Connection Key Body) :
    OverlayManager Conn Secret Key Body :=
  { overlay with connections := Function.update overlay.connections conn (some connection) }

/-- What became of a connection in a call: where `TCPPeer::drop` set its state, it also removed it
from the lists. -/
def store (conn : Conn) (before after : Connection Key Body) :
    OverlayManager Conn Secret Key Body :=
  let stored := overlay.setConnection conn after
  if before.peer.mState ≠ .CLOSING ∧ after.peer.mState = .CLOSING then
    stored.removePeer conn after
  else stored

def call (conn : Conn) (act : Peer Key Body → Peer Key Body) :
    OverlayManager Conn Secret Key Body :=
  match overlay.connections conn with
  | none => overlay
  | some connection => overlay.store conn connection (connection.setPeer (act connection.peer))

def drop (node : NodeState Body) (conn : Conn) : OverlayManager Conn Secret Key Body :=
  overlay.call conn fun peer => peer.drop node

def sendMessage (conn : Conn) (msg : VIIMessage Body) : OverlayManager Conn Secret Key Body :=
  overlay.call conn fun peer => peer.sendMessage app.lib app.encode msg

/-! ### Adding -/

def refuse (node : NodeState Body) (conn : Conn) (connection : Connection Key Body) :
    OverlayManager Conn Secret Key Body :=
  overlay.store conn connection (connection.setPeer (connection.peer.drop node))

def addPending (conn : Conn) (connection : Connection Key Body) :
    OverlayManager Conn Secret Key Body :=
  let list := overlay.getPeersList connection.peer.mRole
  (overlay.setConnection conn connection).setPeersList connection.peer.mRole
    { list with mPending := list.mPending ++ [conn] }

def addInboundConnection (node : NodeState Body) (conn : Conn) (mSendNonce : Uint256)
    (ip : String) : OverlayManager Conn Secret Key Body :=
  let peer := Peer.create app.lib .REMOTE_CALLED_US mSendNonce
  let connection : Connection Key Body := { peer, mAddress := .EMPTY }
  let pending := overlay.mInboundPeers.mPending.length
  let most := app.limits.MAX_INBOUND_PENDING_CONNECTIONS.toNat
  let haveSpace := pending < most ∨
    pending < most + POSSIBLY_PREFERRED_EXTRA ∧ overlay.isPossiblyPreferred ip
  if node.isShuttingDown ∨ ¬ haveSpace then overlay.refuse node conn connection
  else overlay.addPending conn connection

def addOutboundConnection (node : NodeState Body) (conn : Conn) (mSendNonce : Uint256)
    (mAddress : PeerBareAddress) : OverlayManager Conn Secret Key Body :=
  let peer := Peer.create app.lib .WE_CALLED_REMOTE mSendNonce
  let connection : Connection Key Body := { peer, mAddress }
  let pending := overlay.mOutboundPeers.mPending.length
  if node.isShuttingDown ∨ pending ≥ app.limits.MAX_OUTBOUND_PENDING_CONNECTIONS.toNat then
    overlay.refuse node conn connection
  else overlay.addPending conn connection

/-! ### Accepting -/

def moveToAuthenticated (conn : Conn) (connection : Connection Key Body) :
    OverlayManager Conn Secret Key Body × Bool :=
  let list := overlay.getPeersList connection.peer.mRole
  let moved := list.moveToAuthenticated conn connection.getPeerID
  (overlay.setPeersList connection.peer.mRole moved.1, moved.2)

omit [DecidableEq Conn] in
def isVictim (conn : Conn) : Bool :=
  (overlay.connections conn).any fun connection => ¬ overlay.isPreferred app connection

def evict (node : NodeState Body) (victim : Conn) : OverlayManager Conn Secret Key Body :=
  overlay.call victim fun peer =>
    peer.sendErrorAndDrop app.lib app.encode node .ERR_LOAD "preferred peer selected instead"

omit [DecidableEq Conn] in
def hasRoom (role : PeerRole) : Bool :=
  (overlay.getPeersList role).authenticatedCount < (overlay.getPeersList role).mMaxAuthenticatedCount

/-- `acceptAuthenticatedPeer`, for a peer that is not preferred or finds nobody to evict. -/
def acceptIfRoom (conn : Conn) (connection : Connection Key Body) :
    OverlayManager Conn Secret Key Body × Bool :=
  if ¬ app.limits.PREFERRED_PEERS_ONLY ∧ overlay.hasRoom connection.peer.mRole then
    overlay.moveToAuthenticated conn connection
  else (overlay, false)

def acceptAuthenticatedPeer (node : NodeState Body) (conn : Conn)
    (connection : Connection Key Body) : OverlayManager Conn Secret Key Body × Bool :=
  if overlay.isPreferred app connection then
    if overlay.hasRoom connection.peer.mRole then overlay.moveToAuthenticated conn connection
    else
      let authenticated := (overlay.getPeersList connection.peer.mRole).inOrder
      match authenticated.find? fun entry => overlay.isVictim app entry.2 with
      | some victim => (overlay.evict app node victim.2).moveToAuthenticated conn connection
      | none => overlay.acceptIfRoom app conn connection
  else overlay.acceptIfRoom app conn connection

/-! ### Receiving -/

omit [DecidableEq Conn] in
def findAuthenticated (id : NodeID) : Option Conn :=
  (overlay.mOutboundPeers.mAuthenticated.lookup id).or
    (overlay.mInboundPeers.mAuthenticated.lookup id)

omit [DecidableEq Conn] in
def getPendingPeers : List Conn := overlay.mOutboundPeers.mPending ++ overlay.mInboundPeers.mPending

def alreadyConnected (conn : Conn) (id : NodeID) : Bool :=
  (overlay.findAuthenticated id).any (· ≠ conn) ||
    overlay.getPendingPeers.any fun other =>
      other ≠ conn ∧ (overlay.connections other).any fun connection => connection.getPeerID = id

def connectHandler (node : NodeState Body) (conn : Conn) (error : Bool) :
    OverlayManager Conn Secret Key Body :=
  match overlay.connections conn with
  | none => overlay
  | some connection =>
      let (mAuth, peer) :=
        connection.peer.connectHandler app.lib app.encode app.config node overlay.mAuth error
      { overlay with mAuth }.store conn connection (connection.setPeer peer)

/-- The address of a peer that is dropped is not read again. -/
def recvHello (node : NodeState Body) (ip : String) (conn : Conn)
    (connection : Connection Key Body) (peer : Peer Key Body) (elo : Hello) :
    Option (OverlayManager Conn Secret Key Body) :=
  let node :=
    { node with ipEmpty := ip.isEmpty, alreadyConnected := overlay.alreadyConnected conn }
  match peer.recvHello app.lib app.encode app.config node overlay.mAuth elo with
  | none => none
  | some (mAuth, after) =>
      let mAddress :=
        if after.mState = .GOT_HELLO then .IPv4 ip (UInt16.ofNat elo.listeningPort.toNat)
        else connection.mAddress
      some ({ overlay with mAuth }.store conn connection { peer := after, mAddress })

def recvAuth (node : NodeState Body) (conn : Conn) (connection : Connection Key Body)
    (peer : Peer Key Body) (unused : Int) : OverlayManager Conn Secret Key Body :=
  if peer.mState ≠ .GOT_HELLO then
    let after := peer.recvAuth app.lib app.encode node
    overlay.store conn connection (connection.setPeer (after.note (.AUTH unused)))
  else
    let authenticated := connection.setPeer { peer with mState := .GOT_AUTH, reachedAuth := true }
    let (overlay, accepted) :=
      (overlay.setConnection conn authenticated).acceptAuthenticatedPeer app node conn authenticated
    let after :=
      peer.recvAuth app.lib app.encode { node with acceptAuthenticatedPeer := accepted }
    overlay.store conn authenticated (connection.setPeer (after.note (.AUTH unused)))

/-- `Peer::recvMessage(VIIMessage const&)` -/
def dispatch (node : NodeState Body) (ip : String) (conn : Conn) (connection : Connection Key Body)
    (peer : Peer Key Body) (message : VIIMessage Body) :
    Option (OverlayManager Conn Secret Key Body) :=
  match message with
  | .HELLO elo => overlay.recvHello app node ip conn connection peer elo
  | .AUTH unused => some (overlay.recvAuth app node conn connection peer unused)
  | .ERROR_MSG _ _ | .GET_SCP_STATE _ | .content _ _ =>
      match peer.dispatch app.lib app.encode app.config node overlay.mAuth message with
      | none => none
      | some (mAuth, after) =>
          some ({ overlay with mAuth }.store conn connection
            (connection.setPeer (after.note message)))

/-- `TCPPeer::recvMessage` and `Peer::recvMessage(AuthenticatedMessage const&)` -/
def recvBytes [DecidableEq Key] (node : NodeState Body) (ip : String) (conn : Conn)
    (decoded : Option (AuthenticatedMessage Key Body)) :
    Option (OverlayManager Conn Secret Key Body) :=
  match overlay.connections conn with
  | none => none
  | some connection =>
      match decoded with
      | none =>
          some (overlay.store conn connection (connection.setPeer
            (connection.peer.sendErrorAndDrop app.lib app.encode node .ERR_DATA
              "received corrupt XDR")))
      | some msg =>
          if connection.peer.shouldAbort node then some overlay
          else
            match connection.peer.verify app.lib app.encode node msg with
            | (none, after) => some (overlay.store conn connection (connection.setPeer after))
            | (some message, peer) => overlay.dispatch app node ip conn connection peer message

end OverlayManager

end ViiCore.Overlay
