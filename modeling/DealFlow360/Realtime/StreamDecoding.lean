import DealFlow360.Lib.Lists
import DealFlow360.Realtime.EventStream

/-!
# Events that come over the stream

However the stream is cut into pieces, the reader splits it at its blank lines
as a whole: what it has not read yet has no blank line, and a piece only adds
to it. A block is what one event or one comment was written as.

The proof has two parts. The first is about pieces: reading them one by one is
reading the text that they are (`readChunks_eq`), because the buffer holds what
is behind the last blank line. The second is about the text: what is sent for
an item is its block and a blank line, no blank line begins inside a block
(`block_apart`), and a block reads back as its item (`handleBlock_item`).

`decoding_undoes_encoding` puts them together for every split of the stream.
The text of a number is a parameter that reads back.
-/

namespace DealFlow360.Realtime.Sse

open Events (Text trimText toWellFormed isSpaceUnit)
open JsonSyntax (Distinct tokens memberTokens Token)
open Spacing (splitOn)

/-- The blank line that ends a block. -/
def blankLine : Text := [lineFeed, lineFeed]

/-! ## Reading piece by piece -/

section Pieces

variable {hasOnReady : Bool}

theorem call_failed {subscription : Subscription} {callback : JsonTree → Callback} {data : Text} (buffer : Text) :
    ({ subscription with buffer } : Subscription).call callback data =
      { subscription.call callback data with buffer } := by
  unfold Subscription.call
  cases jsonParse data <;> rfl

/-- A block is handled without a look at what is not read yet. -/
theorem handleBlock_buffer (subscription : Subscription) (block : SseBlock) (buffer : Text) :
    handleBlock hasOnReady { subscription with buffer } block =
      { handleBlock hasOnReady subscription block with buffer } := by
  unfold handleBlock
  dsimp only
  split_ifs
  · rfl
  · exact call_failed buffer
  · rfl
  · rfl
  · exact call_failed buffer

theorem handleBlocks_buffer (blocks : List SseBlock) (subscription : Subscription) (buffer : Text) :
    blocks.foldl (handleBlock hasOnReady) { subscription with buffer } =
      { blocks.foldl (handleBlock hasOnReady) subscription with buffer } := by
  induction blocks generalizing subscription with
  | nil => rfl
  | cons block blocks ih => rw [List.foldl_cons, handleBlock_buffer, ih, List.foldl_cons]

theorem handleBlocks_failed {subscription : Subscription} (h : subscription.failed = true) (blocks : List SseBlock) :
    blocks.foldl (handleBlock hasOnReady) subscription = subscription := by
  induction blocks with
  | nil => rfl
  | cons block blocks ih =>
      rw [List.foldl_cons]
      unfold handleBlock at ih ⊢
      rw [if_pos h]
      exact ih

theorem readChunks_failed {subscription : Subscription} (h : subscription.failed = true) (texts : List Text) :
    texts.foldl (readChunk hasOnReady) subscription = subscription := by
  induction texts with
  | nil => rfl
  | cons text texts ih =>
      rw [List.foldl_cons]
      unfold readChunk at ih ⊢
      rw [if_pos h]
      exact ih

/-- Pieces are read as the text that they are. -/
theorem readChunks_eq (texts : List Text) {subscription : Subscription}
    (h : splitOn blankLine subscription.buffer = [subscription.buffer]) : ∃ buffer,
    texts.foldl (readChunk hasOnReady) subscription =
      { (((splitOn blankLine (subscription.buffer ++ texts.flatten)).dropLast.map readBlock).foldl
        (handleBlock hasOnReady)
          subscription) with buffer } := by
  induction texts generalizing subscription with
  | nil =>
      refine ⟨subscription.buffer, ?_⟩
      rw [List.flatten_nil, List.append_nil, h]
      rfl
  | cons text texts ih =>
      by_cases hfailed : subscription.failed = true
      · exact ⟨subscription.buffer, by rw [readChunks_failed hfailed, handleBlocks_failed hfailed]⟩
      · have hsep : blankLine ≠ [] := List.cons_ne_nil _ _
        have hread : readChunk hasOnReady subscription text =
            { ((splitOn blankLine (subscription.buffer ++ text)).dropLast.map readBlock).foldl (handleBlock hasOnReady)
              subscription with buffer := (splitOn blankLine (subscription.buffer ++ text)).getLastD [] } := by
          unfold readChunk
          rw [if_neg hfailed]
          exact handleBlocks_buffer _ _ _
        have hnext : splitOn blankLine (readChunk hasOnReady subscription text).buffer =
            [(readChunk hasOnReady subscription text).buffer] := by
          rw [hread]
          exact Spacing.splitOn_getLastD hsep _
        obtain ⟨buffer, hbuffer⟩ := ih hnext
        refine ⟨buffer, ?_⟩
        have hsplit := Spacing.splitOn_append hsep (subscription.buffer ++ text) texts.flatten
        rw [List.foldl_cons, hbuffer, hread, List.flatten_cons, ← List.append_assoc, hsplit,
          List.dropLast_append_of_ne_nil (Spacing.splitOn_ne_nil _ _), List.map_append, List.foldl_append,
          handleBlocks_buffer]

end Pieces

/-! ## What is written -/

/-- An event or a comment between events. -/
inductive Item where
  | event (event : RealtimeEvent)
  | ping

section Items

variable (numberText : JsNumber → Text)

def writeItem (res : Response) : Item → Response
  | .event e => writeRealtimeEvent numberText res e
  | .ping => writeSseComment res

def writeItems (items : List Item) : Response := items.foldl (writeItem numberText) {}

/-- The lines of an item before the last one, as they are sent. -/
def Item.front : Item → List Text
  | .event e => (if e.id ≠ [] then [codeUnits "id: " ++ toWellFormed e.id] else []) ++
      [codeUnits "event: " ++ toWellFormed e.type]
  | .ping => []

/-- The last line of an item. -/
def Item.last : Item → Text
  | .event e => codeUnits "data: " ++ jsonStringify numberText e.data
  | .ping => codeUnits ": ping"

def Item.block (item : Item) : Text := item.front.flatMap (· ++ [lineFeed]) ++ item.last numberText

/-- What an item is to be read as. -/
def Item.calls : Item → List Callback
  | .event e => [.onEvent e.data]
  | .ping => []

/-- An event whose type has something in it, is no name of the stream's own, and takes one line, as its id does. -/
structure RealtimeEvent.Readable (event : RealtimeEvent) : Prop where
  type_inked : trimText event.type ≠ []
  not_ready : trimText event.type ≠ codeUnits "ready"
  not_ping : trimText event.type ≠ codeUnits "ping"
  type_line : lineFeed ∉ event.type
  id_line : lineFeed ∉ event.id
  numbers : NumbersRead numberText event.payload

def Item.Readable : Item → Prop
  | .event e => e.Readable numberText
  | .ping => True

variable {numberText}

theorem RealtimeEvent.Readable.data_numbers {event : RealtimeEvent} (h : event.Readable numberText) :
    NumbersRead numberText event.data := by
  intro n hn
  refine h.numbers n ?_
  unfold RealtimeEvent.data at hn
  simpa [tokens, memberTokens] using hn

theorem RealtimeEvent.data_distinct (event : RealtimeEvent) : Distinct event.data := by
  refine ⟨?_, trivial, trivial, trivial, trivial, event.payload_distinct, trivial⟩
  show [codeUnits "id", codeUnits "channel", codeUnits "type", codeUnits "occurredAt", codeUnits "payload"].Nodup
  decide

theorem sent_write (res : Response) (text : Text) : (res.write text).sent = res.sent ++ toWellFormed text := by
  unfold Response.sent Response.write
  rw [List.flatMap_append, List.flatMap_singleton]

theorem toWellFormed_line {label : Text} (hlabel : ∀ unit ∈ label, unit < 0xD800) (text : Text) :
    toWellFormed (label ++ text ++ [lineFeed]) = label ++ toWellFormed text ++ [lineFeed] := by
  rw [List.append_assoc, Events.toWellFormed_append hlabel, Events.toWellFormed_append_cons (by decide),
    List.append_assoc]
  rfl

/-- What is sent for an item is its block and a blank line. -/
theorem sent_writeItem {item : Item} (h : item.Readable numberText) {res : Response}
    (hopen : res.writableEnded = false) :
    (writeItem numberText res item).sent = res.sent ++ (item.block numberText ++ blankLine) ∧
      (writeItem numberText res item).writableEnded = false := by
  cases item with
  | ping =>
      have hping : toWellFormed (codeUnits ": " ++ codeUnits "ping" ++ [lineFeed, lineFeed]) =
          codeUnits ": ping" ++ blankLine := by
        decide
      unfold writeItem writeSseComment
      dsimp only
      rw [hopen, if_neg Bool.false_ne_true, sent_write, hping]
      exact ⟨rfl, hopen⟩
  | event e =>
      have hid : toWellFormed (codeUnits "id: " ++ e.id ++ [lineFeed]) = codeUnits "id: " ++
          toWellFormed e.id ++ [lineFeed] :=
        toWellFormed_line (by decide) e.id
      have htype : toWellFormed (codeUnits "event: " ++ e.type ++ [lineFeed]) =
          codeUnits "event: " ++ toWellFormed e.type ++ [lineFeed] := toWellFormed_line (by decide) e.type
      have hlabel : ∀ unit ∈ codeUnits "data: ", unit < 0xD800 := by decide
      have hdata : toWellFormed (codeUnits "data: " ++ jsonStringify numberText e.data ++ [lineFeed, lineFeed]) =
          codeUnits "data: " ++ jsonStringify numberText e.data ++ blankLine := by
        rw [List.append_assoc, Events.toWellFormed_append hlabel, toWellFormed_jsonStringify h.data_numbers,
          List.append_assoc]
        rfl
      unfold writeItem writeRealtimeEvent writeSseEvent
      dsimp only
      rw [hopen, if_neg Bool.false_ne_true]
      by_cases hnone : e.id = []
      · rw [if_neg (not_not.mpr hnone), sent_write, sent_write, htype, hdata]
        refine ⟨?_, hopen⟩
        unfold Item.block Item.front Item.last
        simp only [hnone, ne_eq, not_true_eq_false, if_false, List.nil_append, List.flatMap_singleton,
          List.append_assoc]
      · rw [if_pos hnone, sent_write, sent_write, sent_write, hid, htype, hdata]
        refine ⟨?_, hopen⟩
        unfold Item.block Item.front Item.last
        simp only [hnone, ne_eq, not_false_eq_true, if_true, List.flatMap_append, List.flatMap_singleton,
          List.append_assoc]

theorem sent_writeItems {items : List Item} (h : ∀ item ∈ items, item.Readable numberText) :
    (writeItems numberText items).sent = (items.map (Item.block numberText)).flatMap (· ++ blankLine) := by
  have hall (res : Response) (hopen : res.writableEnded = false) : (items.foldl (writeItem numberText) res).sent =
      res.sent ++ (items.map (Item.block numberText)).flatMap (· ++ blankLine) := by
    induction items generalizing res with
    | nil => exact (List.append_nil _).symm
    | cons item items ih =>
        obtain ⟨hitem, hrest⟩ := List.forall_mem_cons.mp h
        obtain ⟨hsent, hstill⟩ := sent_writeItem hitem hopen
        rw [List.foldl_cons, ih hrest _ hstill, hsent, List.append_assoc]
        rfl
  exact hall {} rfl

/-! ## What is read -/

theorem lineFeed_not_mem {text : Text} (h : lineFeed ∉ text) : lineFeed ∉ toWellFormed text := by
  have hunits : ∀ unit ∈ text, unit ≠ lineFeed := fun unit hunit heq => h (heq ▸ hunit)
  have hkept : ∀ unit ∈ toWellFormed text, unit ≠ lineFeed := by
    refine Lists.forall_mem_of_forall₂ (Events.forall₂_toWellFormed text).flip (fun hreplaced hunit => ?_) hunits
    rcases hreplaced with rfl | ⟨-, -, rfl⟩
    · exact hunit
    · decide
  exact fun hmem => hkept _ hmem rfl

/-- The lines of an item have something in them and no line break. -/
theorem lines_of_item {item : Item} (h : item.Readable numberText) :
    ∀ line ∈ item.front ++ [item.last numberText], line ≠ [] ∧ lineFeed ∉ line := by
  have hlabel {label text : Text} (hlabel : label ≠ [] ∧ lineFeed ∉ label) (htext : lineFeed ∉ text) :
      label ++ text ≠ [] ∧ lineFeed ∉ label ++ text :=
    ⟨fun hnil => hlabel.1 (List.append_eq_nil_iff.mp hnil).1, by rw [List.mem_append, not_or]; exact ⟨hlabel.2, htext⟩⟩
  cases item with
  | ping =>
      show ∀ line ∈ [codeUnits ": ping"], line ≠ [] ∧ lineFeed ∉ line
      decide
  | event e =>
      have hid : codeUnits "id: " ++ toWellFormed e.id ≠ [] ∧ lineFeed ∉ codeUnits "id: " ++ toWellFormed e.id :=
        hlabel (by decide) (lineFeed_not_mem h.id_line)
      have htype : codeUnits "event: " ++ toWellFormed e.type ≠ [] ∧ lineFeed ∉ codeUnits "event: " ++
          toWellFormed e.type :=
        hlabel (by decide) (lineFeed_not_mem h.type_line)
      have hdata : codeUnits "data: " ++ jsonStringify numberText e.data ≠ [] ∧
          lineFeed ∉ codeUnits "data: " ++ jsonStringify numberText e.data := by
        refine hlabel (by decide) fun hmem => ?_
        exact absurd (jsonStringify_units h.data_numbers lineFeed hmem) (by decide)
      intro line hline
      rcases List.mem_append.mp hline with hline | hline
      · rcases List.mem_append.mp hline with hline | hline
        · split_ifs at hline
          · obtain rfl := List.mem_singleton.mp hline
            exact hid
          · exact absurd hline List.not_mem_nil
        · obtain rfl := List.mem_singleton.mp hline
          exact htype
      · obtain rfl := List.mem_singleton.mp hline
        exact hdata

/-- No blank line begins in a block. -/
theorem block_apart {item : Item} (h : item.Readable numberText) :
    ¬blankLine <:+: item.block numberText ++ blankLine.dropLast := by
  have htwice := Spacing.not_twice (lines_of_item h)
  rw [List.flatMap_append, List.flatMap_singleton, ← List.append_assoc] at htwice
  exact htwice

/-- A block is read line by line. -/
theorem readBlock_item {item : Item} (h : item.Readable numberText) :
    readBlock (item.block numberText) = (item.front ++ [item.last numberText]).foldl readLine {} := by
  have hlines := lines_of_item h
  obtain ⟨hfront, hlast⟩ := List.forall_mem_append.mp hlines
  have hsep : [lineFeed] ≠ [] := List.cons_ne_nil _ _
  have happart : ∀ line ∈ item.front, ¬[lineFeed] <:+: line ++ [lineFeed].dropLast := by
    intro line hline hcontains
    rw [List.dropLast_singleton, List.append_nil] at hcontains
    exact (hfront line hline).2 (hcontains.subset List.mem_cons_self)
  have hend : ¬[lineFeed] <:+: item.last numberText := fun hcontains =>
    (hlast _ List.mem_cons_self).2 (hcontains.subset List.mem_cons_self)
  unfold readBlock Item.block
  rw [Spacing.splitOn_blocks hsep happart, Spacing.splitOn_of_not_infix hend]

theorem trimText_jsonStringify (members : List (Text × JsonTree)) :
    trimText (jsonStringify numberText (.object members)) = jsonStringify numberText (.object members) := by
  obtain ⟨middle, hmiddle⟩ := @jsonStringify_object numberText members
  have htrim : trimText ([] ++ ('{'.toNat :: (middle ++ ['}'.toNat]) ++ [])) = _ :=
    Spacing.strip_around (by decide) (by decide) [] middle []
  rw [List.nil_append, List.append_nil] at htrim
  rw [hmiddle]
  exact htrim.trans (List.append_nil _)

theorem readLine_id (block : SseBlock) (text : Text) : readLine block (codeUnits "id: " ++ text) = block := by
  have hid : codeUnits "id: " = 'i'.toNat :: codeUnits "d: " := by decide
  have hevent : codeUnits "event:" = 'e'.toNat :: codeUnits "vent:" := by decide
  have hdata : codeUnits "data:" = 'd'.toNat :: codeUnits "ata:" := by decide
  unfold readLine
  rw [hid, hevent, hdata, List.cons_append, if_neg fun h => absurd (List.cons_prefix_cons.mp h).1 (by decide),
    if_neg fun h => absurd (List.cons_prefix_cons.mp h).1 (by decide)]

theorem readLine_event (block : SseBlock) (text : Text) :
    readLine block (codeUnits "event: " ++ text) = { block with event := some (trimText text) } := by
  have hlabel : codeUnits "event: " = codeUnits "event:" ++ [0x20] ∧ (codeUnits "event:").length = 6 := by decide
  unfold readLine
  rw [hlabel.1, List.append_assoc, if_pos (List.prefix_append _ _), List.drop_left' hlabel.2]
  rfl

theorem readLine_data (block : SseBlock) (text : Text) :
    readLine block (codeUnits "data: " ++ text) = { block with data := some (trimText text) } := by
  have hlabel : codeUnits "data: " = codeUnits "data:" ++ [0x20] ∧ (codeUnits "data:").length = 5 := by decide
  have hevent : codeUnits "event:" = 'e'.toNat :: codeUnits "vent:" := by decide
  have hdata : codeUnits "data:" = 'd'.toNat :: codeUnits "ata:" := by decide
  have hother : ¬codeUnits "event:" <+: codeUnits "data:" ++ ([0x20] ++ text) := by
    rw [hevent, hdata, List.cons_append]
    exact fun h => absurd (List.cons_prefix_cons.mp h).1 (by decide)
  unfold readLine
  rw [hlabel.1, List.append_assoc, if_neg hother, if_pos (List.prefix_append _ _), List.drop_left' hlabel.2]
  rfl

theorem readBlock_event {e : RealtimeEvent} (h : e.Readable numberText) : readBlock ((Item.event e).block numberText) =
    { event := some (trimText (toWellFormed e.type)), data := some (jsonStringify numberText e.data) } := by
  have hdata : trimText (jsonStringify numberText e.data) = jsonStringify numberText e.data := trimText_jsonStringify _
  rw [@readBlock_item _ (.event e) h]
  unfold Item.front Item.last
  dsimp only
  split_ifs
  · rw [List.singleton_append, List.cons_append, List.singleton_append, List.foldl_cons, readLine_id, List.foldl_cons,
      readLine_event, List.foldl_cons, readLine_data, hdata]
    rfl
  · rw [List.nil_append, List.singleton_append, List.foldl_cons, readLine_event, List.foldl_cons, readLine_data, hdata]
    rfl

/-- An item's block is handled as the item. -/
theorem handleBlock_item {hasOnReady : Bool} {item : Item} (h : item.Readable numberText) {subscription : Subscription}
    (hopen : subscription.failed = false) : handleBlock hasOnReady subscription (readBlock (item.block numberText)) =
      { subscription with calls := subscription.calls ++ item.calls } := by
  cases item with
  | ping =>
      have hblock : readBlock (codeUnits ": ping") = {} := by decide
      show handleBlock hasOnReady subscription (readBlock (codeUnits ": ping")) = _
      rw [hblock]
      unfold handleBlock
      dsimp only [Option.getD_none]
      rw [if_neg (by rw [hopen]; exact Bool.false_ne_true), if_neg fun hboth => hboth.2 rfl, if_pos (Or.inl rfl)]
      exact congrArg (fun calls => { subscription with calls }) (List.append_nil _).symm
  | event e =>
      have hsame := Events.forall₂_trimText e.type
      have htype {name : Text} (hname : 0xFFFD ∉ name) (hne : trimText e.type ≠ name) :
          trimText (toWellFormed e.type) ≠ name :=
        fun heq => hne (Events.eq_of_forall₂_replaced (heq ▸ hsame) hname)
      have hready := htype (by decide) h.not_ready
      have hping := htype (by decide) h.not_ping
      have hinked := htype List.not_mem_nil h.type_inked
      have hdata : jsonStringify numberText e.data ≠ [] := by
        obtain ⟨middle, hmiddle⟩ := @jsonStringify_object numberText [(codeUnits "id", .string e.id),
          (codeUnits "channel", .string e.channel), (codeUnits "type", .string e.type),
          (codeUnits "occurredAt", .string e.occurredAt), (codeUnits "payload", e.payload)]
        unfold RealtimeEvent.data
        rw [hmiddle]
        exact List.cons_ne_nil _ _
      rw [readBlock_event h]
      unfold handleBlock
      dsimp only [Option.getD_some]
      rw [if_neg (by rw [hopen]; exact Bool.false_ne_true), if_neg fun hboth => hready hboth.1, if_neg]
      · unfold Subscription.call
        rw [jsonParse_jsonStringify e.data_distinct h.data_numbers]
        rfl
      · rintro (hnone | hnone | hnone)
        · exact hdata hnone
        · exact hinked hnone
        · exact hping hnone

/-- However the stream is cut, each event is handed over once, in order, as it was written. -/
theorem decoding_undoes_encoding {items : List Item} (h : ∀ item ∈ items, item.Readable numberText) (hasOnReady : Bool)
    {texts : List Text} (htexts : texts.flatten = (writeItems numberText items).sent) :
    (subscribeRealtime hasOnReady texts).calls = items.flatMap Item.calls ∧
      (subscribeRealtime hasOnReady texts).failed = false := by
  have hsep : blankLine ≠ [] := List.cons_ne_nil _ _
  have hblocks : splitOn blankLine texts.flatten = items.map (Item.block numberText) ++ [[]] := by
    have hsplit := Spacing.splitOn_blocks hsep (List.forall_mem_map.mpr fun item hitem => block_apart (h item hitem)) []
    rw [List.append_nil, ← sent_writeItems h, ← htexts] at hsplit
    exact hsplit
  have hhandled (subscription : Subscription) (hopen : subscription.failed = false) :
      ((items.map (Item.block numberText)).map readBlock).foldl (handleBlock hasOnReady) subscription =
        { subscription with calls := subscription.calls ++ items.flatMap Item.calls } := by
    clear hblocks htexts
    induction items generalizing subscription with
    | nil => rw [List.flatMap_nil, List.append_nil]; rfl
    | cons item items ih =>
        obtain ⟨hitem, hrest⟩ := List.forall_mem_cons.mp h
        have htail := ih hrest { subscription with calls := subscription.calls ++ item.calls } hopen
        rw [List.map_cons, List.map_cons, List.foldl_cons, handleBlock_item hitem hopen, htail, List.flatMap_cons,
          List.append_assoc]
  obtain ⟨buffer, hread⟩ := @readChunks_eq hasOnReady texts {} rfl
  unfold subscribeRealtime
  rw [hread, List.nil_append, hblocks, List.dropLast_concat, hhandled {} rfl]
  exact ⟨List.nil_append _, rfl⟩

end Items

/-- The text of the one number in the events. -/
def oneText (_ : JsNumber) : Text := codeUnits "1"

def jobUpdated : RealtimeEvent where
  id := codeUnits "evt-1"
  channel := codeUnits "jobs"
  type := codeUnits "job.updated"
  occurredAt := codeUnits "2026-03-02T00:00:00.000Z"
  payload := .object [(codeUnits "progress", .atom (.number (.finite 1))),
    (codeUnits "note", .string (codeUnits "a\n\nb"))]
  payload_distinct := ⟨by show [codeUnits "progress", codeUnits "note"].Nodup; decide, trivial, trivial, trivial⟩

theorem decoding_of_two_pieces : (subscribeRealtime true
      [(writeItems oneText [.event jobUpdated, .ping, .event jobUpdated]).sent.take 50,
        (writeItems oneText [.event jobUpdated, .ping, .event jobUpdated]).sent.drop 50]).calls =
      [.onEvent jobUpdated.data, .onEvent jobUpdated.data] := by
  have hread : jobUpdated.Readable oneText :=
    { type_inked := by decide
      not_ready := by decide
      not_ping := by decide
      type_line := by decide
      id_line := by decide
      numbers := by
        intro n hn
        obtain rfl : n = .finite 1 := by simpa [jobUpdated, tokens, memberTokens] using hn
        exact ⟨by decide +kernel, by decide +kernel⟩ }
  have hall : ∀ item ∈ [Item.event jobUpdated, .ping, .event jobUpdated], item.Readable oneText := by
    simp only [List.forall_mem_cons]
    exact ⟨hread, trivial, hread, fun _ h => absurd h List.not_mem_nil⟩
  refine (decoding_undoes_encoding hall true ?_).1
  rw [List.flatten_cons, List.flatten_singleton, List.take_append_drop]

end DealFlow360.Realtime.Sse
