/-!
Digests of texts: the 64-bit hash XXH64 of their UTF-8 bytes, with a seed.
-/

namespace SnippetAudit.Digest

/-- The five odd constants that bytes and lanes are mixed with. -/
def prime1 : UInt64 := 0x9E3779B185EBCA87
@[inherit_doc prime1] def prime2 : UInt64 := 0xC2B2AE3D27D4EB4F
@[inherit_doc prime1] def prime3 : UInt64 := 0x165667B19E3779F9
@[inherit_doc prime1] def prime4 : UInt64 := 0x85EBCA77C2B2AE63
@[inherit_doc prime1] def prime5 : UInt64 := 0x27D4EB2F165667C5

/-- The bits of a word turned to the left; `count` lies between 1 and 63. -/
def turn (word count : UInt64) : UInt64 :=
  (word <<< count) ||| (word >>> (64 - count))

def round (lane word : UInt64) : UInt64 :=
  turn (lane + word * prime2) 31 * prime1

/-- The word of `count` bytes from a position on, the first byte being the least. -/
def wordAt (bytes : ByteArray) (position count : Nat) : UInt64 :=
  (List.range count).foldr (fun offset word =>
    (word <<< 8) ||| (bytes[position + offset]?.getD 0).toUInt64) 0

/-- The four lanes after a stripe of thirty-two bytes from a position on. -/
def stripe (bytes : ByteArray) (position : Nat) : List UInt64 → List UInt64 :=
  List.mapIdx fun lane value => round value (wordAt bytes (position + 8 * lane) 8)

def converge (lanes : List UInt64) : UInt64 :=
  let sum := (List.zipWith turn lanes [1, 7, 12, 18]).foldl (· + ·) 0
  lanes.foldl (fun hash lane => (hash ^^^ round 0 lane) * prime1 + prime4) sum

/-- What the whole stripes of some bytes come to. -/
def stripes (bytes : ByteArray) (seed : UInt64) : UInt64 :=
  if bytes.size < 32 then seed + prime5
  else
    converge ((List.range (bytes.size / 32)).foldl
      (fun lanes index => stripe bytes (32 * index) lanes)
      [seed + prime1 + prime2, seed + prime2, seed, seed - prime1])

/-- Mixes in the bytes behind the last stripe: words of eight bytes, then a word of four if there
are as many left, then single bytes. -/
def tail (bytes : ByteArray) (hash : UInt64) : UInt64 :=
  let start := bytes.size / 32 * 32
  let words := (bytes.size - start) / 8
  let afterWords := (List.range words).foldl (fun hash index =>
    turn (hash ^^^ round 0 (wordAt bytes (start + 8 * index) 8)) 27 * prime1 + prime4) hash
  let position := start + 8 * words
  let half := if 4 ≤ bytes.size - position then 4 else 0
  let afterHalf :=
    if half = 0 then afterWords
    else turn (afterWords ^^^ (wordAt bytes position 4 * prime1)) 23 * prime2 + prime3
  (List.range (bytes.size - (position + half))).foldl (fun hash index =>
    turn (hash ^^^ (wordAt bytes (position + half + index) 1 * prime5)) 11 * prime1) afterHalf

def avalanche (hash : UInt64) : UInt64 :=
  let hash := (hash ^^^ (hash >>> 33)) * prime2
  let hash := (hash ^^^ (hash >>> 29)) * prime3
  hash ^^^ (hash >>> 32)

def hash (seed : UInt64) (bytes : ByteArray) : UInt64 :=
  avalanche (tail bytes (stripes bytes seed + bytes.size.toUInt64))

def hexText (word : UInt64) : String :=
  let digits := Nat.toDigits 16 word.toNat
  String.ofList (List.replicate (16 - digits.length) '0' ++ digits)

end SnippetAudit.Digest
