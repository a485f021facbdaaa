import DealFlow360.Events.EventIds
import DealFlow360.Lib.Paging
import DealFlow360.Lib.Spacing

/-!
# The chunker

`RecursiveCharacterChunker` splits a text at paragraphs, lines, sentences and
words until the pieces are short enough, and merges pieces that follow one
another up to the size of a chunk. A chunk begins with the end of the one
before, where that fits.

`split` tries the separators from the coarsest to the finest and cuts at
characters when none is left; `mergePiece` joins pieces and begins a chunk anew
with the overlap. Lengths are in UTF-16 units, and trimming is the platform's.
The recursion is on the list of separators, and what the chunks keep of the
text is proved in the modules about lossless chunks.
-/

namespace DealFlow360.Rag

open Events (Text isSpaceUnit trimText)
open Spacing

structure TextChunk where
  chunkIndex : ℕ
  content : Text
  deriving DecidableEq, Repr

/-- The chunker's options, with their defaults. -/
structure ChunkerOptions where
  chunkSize : ℕ := 800
  overlap : ℕ := 120
  maxChunks : ℕ := 200
  deriving DecidableEq, Repr

structure RecursiveCharacterChunker where
  chunkSize : ℕ
  overlap : ℕ
  maxChunks : ℕ
  deriving DecidableEq, Repr

def createChunker (options : ChunkerOptions) : RecursiveCharacterChunker where
  chunkSize := options.chunkSize
  overlap := min options.overlap (options.chunkSize - 1)
  maxChunks := options.maxChunks

/-- `SEPARATORS` but for the last one, the empty text. -/
def separators : List Text := [codeUnits "\n\n", codeUnits "\n", codeUnits ". ", codeUnits " "]

/-- `replace(/\r\n/g, '\n')`. -/
def unixLines : Text → Text
  | 13 :: 10 :: rest => 10 :: unixLines rest
  | unit :: rest => unit :: unixLines rest
  | [] => []

/-- `replace(/\s+/g, ' ').trim()`. -/
def collapse (text : Text) : Text := tidy isSpaceUnit 0x20 text

namespace RecursiveCharacterChunker

variable (chunker : RecursiveCharacterChunker)

/-- `split`, with the separators from its index on; the empty one cuts the text into slices. -/
def split : List Text → Text → List Text
  | [], text =>
      if text.length ≤ chunker.chunkSize then [text]
      else (List.range (Paging.pageCount chunker.chunkSize text.length)).map (Paging.page chunker.chunkSize text)
  | separator :: rest, text =>
      if text.length ≤ chunker.chunkSize then [text]
      else ((splitOn separator text).filter (· ≠ [])).flatMap fun part =>
        if part.length ≤ chunker.chunkSize then [part] else split rest part

def withOverlap (previous next : Text) : Text :=
  if chunker.overlap = 0 then next
  else
    let tail := previous.drop (previous.length - chunker.overlap)
    let joined := collapse (tail ++ 0x20 :: next)
    if joined.length ≤ chunker.chunkSize then joined else next

/-- The chunks so far and the one that is filled. -/
structure Merging where
  chunks : List Text := []
  current : Text := []
  deriving DecidableEq, Repr

/-- One turn of the loop of `merge`. -/
def mergePiece (state : Merging) (piece : Text) : Merging :=
  let candidate := if state.current ≠ [] then collapse (state.current ++ 0x20 :: piece) else piece
  if candidate.length ≤ chunker.chunkSize then { state with current := candidate }
  else if state.current ≠ [] then
    { chunks := state.chunks ++ [state.current], current := chunker.withOverlap state.current piece }
  else
    { chunks := state.chunks ++ [piece.take chunker.chunkSize]
      current := piece.drop (piece.length - chunker.overlap) }

def merge (pieces : List Text) : List Text :=
  let state := pieces.foldl chunker.mergePiece {}
  let chunks := if state.current ≠ [] then state.chunks ++ [state.current] else state.chunks
  (chunks.map trimText).filter (· ≠ [])

/-- `chunk`; none where it throws, for there are too many chunks. -/
def chunk (text : Text) : Option (List TextChunk) :=
  let normalized := trimText (unixLines text)
  if normalized = [] then some []
  else
    let merged := chunker.merge (chunker.split separators normalized)
    if chunker.maxChunks < merged.length then none
    else some (merged.mapIdx fun chunkIndex content => { chunkIndex, content })

end RecursiveCharacterChunker

example : (createChunker { chunkSize := 8, overlap := 3 }).chunk (codeUnits "one two  six") =
    some [{ chunkIndex := 0, content := codeUnits "one two" },
      { chunkIndex := 1, content := codeUnits "two six" }] := by
  decide

end DealFlow360.Rag
