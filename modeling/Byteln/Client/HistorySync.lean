import Byteln.Client.History
import Byteln.Client.Transfer

/-!
# Comparing and cutting histories

Each side of a resync sends the messages whose ids the other side did not
list, as one compressed bundle cut into chunks.
-/

namespace Byteln.Client

open Byteln.Library

variable {ν : Type}

def sortMessageIds (ids : List JSString) : List JSString :=
  ids.insertionSort fun a b => a ≤ b

def idsOnlyInA (a b : List JSString) : List JSString :=
  a.filter fun id => id ∉ b

def flipFrom (msg : StoredMessage ν) : StoredMessage ν :=
  { msg with origin := if msg.origin = .self then .peer else .self }

def filterMessagesByIds (msgs : List (StoredMessage ν))
    (ids : List JSString) : List (StoredMessage ν) :=
  msgs.filter fun msg => msg.id ∈ ids

/-- The chunk of a bundle at an index; only the first one says how long the
bundle is. -/
def historyChunk (bundleId : JSString) (compressed : Bytes) (total : Nat)
    (index : Nat) : HistoryChunkPlainMessage where
  id := bundleId
  index := index
  total := total
  data := (compressed.drop (index * HISTORY_CHUNK_PAYLOAD_BYTES)).take
    HISTORY_CHUNK_PAYLOAD_BYTES
  compressedLength := if index = 0 then some compressed.length else none

def splitHistoryChunks (bundleId : JSString) (compressed : Bytes) :
    List HistoryChunkPlainMessage :=
  let total := max 1 (ceilDiv compressed.length HISTORY_CHUNK_PAYLOAD_BYTES)
  (List.range total).map (historyChunk bundleId compressed total)

/-- The request a bundle id belongs to: what stands before the first colon. -/
def bundleRequestId (bundleId : JSString) : JSString :=
  bundleId.takeWhile fun unit => unit ∉ js ":"

/-- How the history of a room is packed and read back: JSON and gzip, in
`crypto/history-sync.ts`.  Packing fails where the browser has no
`CompressionStream`. -/
structure HistoryCodec (ν : Type) where
  packMessagesForSync : List (StoredMessage ν) → Option Bytes
  unpackMessagesFromSync : Bytes → Option (List (StoredMessage ν))

end Byteln.Client
