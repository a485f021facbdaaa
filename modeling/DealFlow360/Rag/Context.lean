import DealFlow360.Ai.Injection
import DealFlow360.Lib.Spacing
import DealFlow360.Numerals

/-!
# The context of a question

`rag.context.ts`: the retrieved chunks are written one after another, each
between a header of its attributes and a closing line, until the next one would
be too long. The text of a number is the platform's.

`formatChunkBlock` writes the header and the closing line, `assemble` adds
blocks while the whole stays within the limit, and the body is wrapped as
untrusted data. Whether the blocks are too long is compared on the joined text,
separators included, as the source does.
-/

namespace DealFlow360.Rag.Context

open Events (Text)
open Ai (wrapUntrustedData)

/-- `String(n)`. -/
structure NumberText where
  toText : JsNumber → Text
  toText_injective : Function.Injective toText
  toText_units : ∀ n, ∀ unit ∈ toText n, unit ≠ 0x20 ∧ unit ≠ '\n'.toNat

/-- A retrieved chunk, with any metadata. -/
structure RetrievedChunk (μ : Type) where
  documentId : Text
  chunkId : Text
  source : Text
  content : Text
  metadata : μ
  score : JsNumber

def isLineBreak (unit : ℕ) : Bool := unit = '\r'.toNat || unit = '\n'.toNat

def escapeAttr (value : Text) : Text := (Spacing.squeeze isLineBreak 0x20 false value).take 256

/-- `Number(score.toFixed(4))`. -/
def roundScore : JsNumber → JsNumber
  | .finite x => if |x| < 10 ^ 21 then ofMagnitude (x < 0) (⌊|x| * 10 ^ 4 + 1 / 2⌋ / 10 ^ 4) else .finite x
  | other => other

/-! ## Blocks -/

section Blocks

variable {μ : Type} (numbers : NumberText)

/-- The first line of a block. -/
def chunkHeader (chunkId documentId source : Text) (score : JsNumber) : Text :=
  codeUnits "[chunk chunkId=" ++ (chunkId ++ (codeUnits " documentId=" ++ (documentId ++ (codeUnits " source=" ++
    (source ++ (codeUnits " score=" ++ (numbers.toText score ++ codeUnits "]")))))))

def formatChunkBlock (chunk : RetrievedChunk μ) : Text :=
  (codeUnits "\n").intercalate
    [chunkHeader numbers chunk.chunkId chunk.documentId (escapeAttr chunk.source) (roundScore chunk.score),
      chunk.content, codeUnits "[/chunk]"]

/-! ## Assembly -/

structure Assembly (μ : Type) where
  selected : List (RetrievedChunk μ)
  parts : List Text
  usedChars : ℕ
  truncated : Bool

/-- `chars > maxChars`. -/
def exceeds (chars : ℕ) : JsNumber → Bool
  | .finite maxChars => maxChars < chars
  | .infinite negative => negative
  | .nan => false

/-- The loop over the chunks. -/
def assemble (maxChars : JsNumber) : List (RetrievedChunk μ) → Assembly μ → Assembly μ
  | [], state => state
  | chunk :: rest, state =>
      let block := formatChunkBlock numbers chunk
      let next := state.usedChars + block.length + (if state.parts.length > 0 then 2 else 0)
      if exceeds next maxChars then { state with truncated := true }
      else assemble maxChars rest { state with selected := state.selected ++ [chunk]
                                               parts := state.parts ++ [block]
                                               usedChars := next }

structure AssembledContext (μ : Type) where
  prompt : Text
  usedChars : ℕ
  chunks : List (RetrievedChunk μ)
  truncated : Bool

def assembleContext (maxChars : JsNumber) (chunks : List (RetrievedChunk μ)) : AssembledContext μ :=
  let assembly := assemble numbers maxChars chunks { selected := [], parts := [], usedChars := 0, truncated := false }
  let body := (codeUnits "\n\n").intercalate assembly.parts
  let prompt := wrapUntrustedData .document (if body.length > 0 then body else codeUnits "(no retrieved chunks)")
  { prompt, usedChars := prompt.length, chunks := assembly.selected, truncated := assembly.truncated }

end Blocks

end DealFlow360.Rag.Context
