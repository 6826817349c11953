import VcOperator.Mux.Model.Shared
/-!
# A client's handler

`handle_client_message` and `forward_request` of
`mux-agent/src/runtime/client.rs`, one operation for each stretch of code
between two points where another task may run: a lock section, or a use
of the `to_server` channel. A handler is the list of operations it has
still to do. `ClientOp.run` executes one of them and answers with the
operations that replace it, so a call is a prefix of the list and its
return is the point where that prefix is used up.

`none` means that the operation has to wait. Only `send` does: the
channel is bounded, and a full one holds its sender back.
-/

namespace VcOperator

namespace Mux

/-- The operations of a client's handler. -/
inductive ClientOp where
  /-- `handle_client_message`, up to the branch it takes, with the lock
  section in which its caller reads `max_request_bytes`. -/
  | handleClientMessage (msg : Tagged Value)
  /-- The size check fails. -/
  | rejectTooLarge (msg : Tagged Value)
  /-- The first lock section of `notifications/initialized`. -/
  | markServerInitialized (msg : Tagged Value)
  /-- `try_send`: dropped with a warning where the channel has no room. -/
  | trySend (msg : Tagged Value)
  /-- The second lock section of `notifications/initialized`. -/
  | completeHandshake
  /-- The loop over the messages the handshake had held back. -/
  | flushBuffered (buffered : List (Tagged Value))
  /-- The lock section of `initialize`. -/
  | handleInitialize (msg : Value) (localId : Tagged Value)
  /-- The handshake check of every other request. -/
  | checkHandshake (msg : Tagged Value)
  /-- The lock section that buffers a request. -/
  | bufferMessage (msg : Tagged Value)
  /-- The lock section of `forward_request`. -/
  | forwardRequest (msg : Tagged Value)
  /-- `to_server_tx.send(msg).await`, and what follows it in its function.
  `isInitialize` tells the two functions that do this apart. -/
  | send (msg : Tagged Value) (isInitialize : Bool)
  | updateQueueDepth
  | publishStatus
  /-- The error `handle_client` sends on a handshake timeout. -/
  | rejectHandshakeTimeout
  /-- The lock section at the end of `handle_client`. -/
  | unregisterClient
  /-- The semaphore permit is dropped with `handle_client`'s frame. -/
  | releasePermit

namespace ClientOp

/-- The operation is a lock section. -/
def locks : ClientOp → Bool
  | trySend _ | send _ _ | releasePermit => false
  | flushBuffered buffered => !buffered.isEmpty
  | _ => true

/-- The branch `handle_client_message` takes. `encodedLen` is the length
of `serde_json::to_vec`. -/
def dispatch (encodedLen : Value → ℕ) (maxRequestBytes : ℕ) (msg : Tagged Value) :
    List ClientOp :=
  if maxRequestBytes < encodedLen msg.val then [rejectTooLarge msg]
  else if method msg.val = "notifications/initialized" then [markServerInitialized msg]
  else
    match msg.val.get "id" with
    | none => [trySend msg, updateQueueDepth, publishStatus]
    | some localId =>
      if method msg.val = "initialize" then [handleInitialize msg.val ⟨localId, msg.occ⟩]
      else [checkHandshake msg]

/-- The overload answer of `initialize` and `forward_request`. -/
def overloaded (clientId : ℕ) (localId : Tagged Value) : Delivery :=
  Shared.errorReply localId "mux overloaded (too many pending)" clientId

/-- A global id is issued and its entry inserted into `pending`. -/
def insertPending (sh : Shared) (clientId : ℕ) (localId : Tagged Value)
    (isInitialize : Bool) : Shared :=
  { sh with
    st := { sh.st.nextRequestId with
      pending := sh.st.pending.insert (globalId clientId sh.st.nextGlobalId)
        ⟨clientId, localId, isInitialize, sh.now⟩ }
    issued := sh.issued ++ [⟨clientId, sh.st.nextGlobalId, localId.occ, isInitialize⟩] }

/-- The message as it is forwarded, its id replaced by the issued one. -/
def withGlobalId (sh : Shared) (clientId : ℕ) (msg : Value) (occ : Occ) : Tagged Value :=
  ⟨setId msg (.string (globalId clientId sh.st.nextGlobalId)), occ⟩

/-- The lock section of `forward_request`. A message without an id is an
error that leaves the state alone. -/
def runForwardRequest (clientId : ℕ) (msg : Tagged Value) (sh : Shared) :
    Shared × List ClientOp :=
  match msg.val.get "id" with
  | none => (sh, [])
  | some localId =>
    if maxPending ≤ sh.st.pending.len then
      (sh.reply (overloaded clientId ⟨localId, msg.occ⟩), [])
    else
      (insertPending sh clientId ⟨localId, msg.occ⟩ false,
        [send (withGlobalId sh clientId msg.val msg.occ) false])

/-- The lock section of `initialize`: served from the cache, parked behind
one that is running, refused, or forwarded. -/
def runInitialize (clientId : ℕ) (msg : Value) (localId : Tagged Value) (sh : Shared) :
    Shared × List ClientOp :=
  let sh := { sh with st := sh.st.markInitializePending clientId }
  match sh.st.cachedInitialize with
  | some cached =>
    (sh.reply ⟨clientId, setId cached localId.val, some localId.occ, .mux⟩, [])
  | none =>
    if sh.st.initializing then
      ({ sh with st := { sh.st with initWaiting := sh.st.initWaiting ++ [(clientId, localId)] } },
        [])
    else if maxPending ≤ sh.st.pending.len then
      (sh.reply (overloaded clientId localId), [])
    else
      (insertPending sh clientId localId true,
        [send (withGlobalId sh clientId msg localId.occ) true])

/-- One operation of client `clientId`'s handler. -/
def run (encodedLen : Value → ℕ) (clientId : ℕ) (sh : Shared) :
    ClientOp → Option (Shared × List ClientOp)
  | handleClientMessage msg => some (sh, dispatch encodedLen sh.st.maxRequestBytes msg)
  | rejectTooLarge msg =>
    some (sh.reply (Shared.errorReply ⟨(msg.val.get "id").getD .null, msg.occ⟩
      "request too large" clientId), [])
  | markServerInitialized msg =>
    if sh.st.serverInitialized then some (sh, [completeHandshake])
    else some ({ sh with st := { sh.st with serverInitialized := true } },
      [trySend msg, completeHandshake])
  | trySend msg =>
    if sh.hasRoom then some (sh.enqueue ⟨msg.val, .client msg.occ⟩, []) else some (sh, [])
  | completeHandshake =>
    some ({ sh with st := sh.st.markHandshakeComplete clientId },
      [flushBuffered (sh.st.bufferedMessages clientId), updateQueueDepth, publishStatus])
  | flushBuffered [] => some (sh, [])
  | flushBuffered (msg :: buffered) =>
    let (sh, ops) := runForwardRequest clientId msg sh
    some (sh, ops ++ [flushBuffered buffered])
  | handleInitialize msg localId => some (runInitialize clientId msg localId sh)
  | checkHandshake msg =>
    if sh.st.isHandshakeComplete clientId then some (sh, [forwardRequest msg])
    else some (sh, [bufferMessage msg])
  | bufferMessage msg => some ({ sh with st := sh.st.bufferMessage clientId msg }, [])
  | forwardRequest msg => some (runForwardRequest clientId msg sh)
  | send msg isInitialize =>
    if !sh.toServerOpen then some (sh, [])
    else if sh.hasRoom then
      let sh := sh.enqueue ⟨msg.val, .client msg.occ⟩
      some (if isInitialize then
          { sh with initEvents := sh.initEvents ++ [.put msg.occ] } else sh,
        [updateQueueDepth, publishStatus])
    else none
  | updateQueueDepth => some (sh.updateQueueDepth, [])
  | publishStatus => some (sh.publishStatus, [])
  | rejectHandshakeTimeout =>
    some (sh.reply ⟨clientId, errorResponse .null
      "handshake timeout: initialize/initialized sequence not completed", none, .mux⟩, [])
  | unregisterClient => some (sh.unregister clientId, [])
  | releasePermit => some ({ sh with availablePermits := sh.availablePermits + 1 }, [])

end ClientOp

end Mux

end VcOperator
