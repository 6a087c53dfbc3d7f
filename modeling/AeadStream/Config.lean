import AeadStream.Chunk

/-!
# Settings of a stream

How long a chunk may be and after how many chunks the subkey is replaced at the latest. Both
sides of a stream need the same ceiling.
-/

namespace AeadStream

/-- **The settings** of one side of a stream. -/
structure Config where
  /-- chunks per subkey, before it is brought into the accepted range -/
  rekeyInterval : UInt32 := 4294967279
  /-- bytes of plaintext a chunk may hold -/
  maxChunkLen : UInt64 := 16777216
deriving DecidableEq

namespace Config

/-- The largest accepted number of chunks per subkey: sixteen short of the last value of the
counter. -/
def maxRekeyInterval : UInt32 := 4294967279

/-- The number of chunks per subkey, brought into the accepted range. -/
def ceilingFor (interval : UInt32) : UInt32 :=
  if interval = 0 then 1 else if maxRekeyInterval < interval then maxRekeyInterval else interval

/-- **The ceiling** of the counter: on reaching it the subkey is replaced. -/
def ceiling (config : Config) : UInt32 := ceilingFor config.rekeyInterval

/-- The longest sealed chunk of a stream with this limit on plaintexts, as far as lengths go. -/
def sealedLimit (maxChunkLen : UInt64) : Nat :=
  min (maxChunkLen.toNat + chunkOverhead) (UInt64.size - 1)

/-- The wording for programmers. -/
def describe (config : Config) : String :=
  Text.record "StreamConfig"
    [("rekey_interval", toString config.rekeyInterval.toNat),
     ("max_chunk_len", toString config.maxChunkLen.toNat)]

end Config

/-- How a ceiling is shown to programmers. -/
def describeCeiling (ceiling : UInt32) : String :=
  Text.record "RekeyScheduler" [("ceiling", toString ceiling.toNat)]

end AeadStream
