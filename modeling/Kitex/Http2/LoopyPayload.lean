import Kitex.Http2.LoopyScheduler

/-! # What the loopy writer sends for a stream

A stream's data frames are cut at window and frame boundaries, interleaved with
other streams and put back in between. `Moves` says what one step does to the
list of one stream; along a run the pieces written for it carry, in order, the
data frames that were handled while it was established.
-/

namespace Kitex.Http2

open Kitex.Container

variable {hpack : Hpack} {effect : Effect}

def StreamItem.streamID : StreamItem → UInt32
  | .data df => df.streamID
  | .header h => h.streamID

def StreamItem.isData : StreamItem → Bool
  | .data _ => true
  | .header _ => false

/-- The messages of the data frames among the items. -/
def messagesOf (items : List StreamItem) : List (Piece UInt8) :=
  items.filterMap fun
    | .data df => some df.message
    | .header _ => none

/-- The DATA frames written for a stream. -/
def piecesOf (streamID : UInt32) (effects : List Effect) : List (Piece UInt8) :=
  effects.filterMap fun
    | .wrote (.data written endStream payload) =>
      if written = streamID then some ⟨payload, endStream⟩ else none
    | _ => none

namespace Effect

/-- The effect is part of what is told about the stream. -/
def Concerns (streamID : UInt32) : Effect → Prop
  | .wrote (.data written _ _) => written = streamID
  | .wrote (.headers written endStream _ _) => written = streamID ∧ endStream = true
  | _ => False

theorem IsNeutral.not_concerns (hneutral : effect.IsNeutral) (streamID : UInt32) :
    ¬effect.Concerns streamID := by
  unfold Concerns
  split
  · exact fun _ => hneutral
  · rintro ⟨-, hend⟩
    rw [IsNeutral, hend] at hneutral
    cases hneutral
  · exact id

end Effect

/-- No effect concerns the stream. -/
def Quiet (streamID : UInt32) (added : List Effect) : Prop :=
  ∀ effect ∈ added, ¬effect.Concerns streamID

variable {added : List Effect} {streamID : UInt32} {queue rest : List StreamItem}
  {l : LoopyWriter hpack} {df : DataFrame} {more : List StreamItem} {itl : List StreamItem}
  {side : Side} {str : OutStream} {h : HeaderFrame} {first second : List Effect}
  {endStream : Bool} {written : UInt32}

theorem quiet_of_neutral (hneutral : ∀ effect ∈ added, effect.IsNeutral) (streamID : UInt32) :
    Quiet streamID added :=
  fun effect heffect => (hneutral effect heffect).not_concerns streamID

theorem Quiet.append (hfirst : Quiet streamID first) (hsecond : Quiet streamID second) :
    Quiet streamID (first ++ second) := by
  intro effect heffect
  rcases List.mem_append.mp heffect with hmem | hmem
  · exact hfirst effect hmem
  · exact hsecond effect hmem

theorem Quiet.cons (heffect : ¬effect.Concerns streamID) (hadded : Quiet streamID added) :
    Quiet streamID (effect :: added) :=
  List.forall_mem_cons.mpr ⟨heffect, hadded⟩

/-- The header block of one stream is quiet for the others. -/
theorem HeaderBlock.quiet (hblock : HeaderBlock written endStream added)
    (hne : streamID ≠ written) : Quiet streamID added := by
  obtain ⟨before, endHeaders, fragment, after, rfl, hbefore, hafter⟩ := hblock
  refine (quiet_of_neutral hbefore streamID).append (.cons ?_ (quiet_of_neutral hafter streamID))
  rintro ⟨heq, -⟩
  exact hne heq.symm

/-! ## The record of one stream -/

section Views

variable {streamID : UInt32}

@[simp] theorem messagesOf_append (first second : List StreamItem) :
    messagesOf (first ++ second) = messagesOf first ++ messagesOf second :=
  List.filterMap_append

@[simp] theorem messagesOf_data (df : DataFrame) (items : List StreamItem) :
    messagesOf (.data df :: items) = df.message :: messagesOf items := rfl

@[simp] theorem messagesOf_header (h : HeaderFrame) (items : List StreamItem) :
    messagesOf (.header h :: items) = messagesOf items := rfl

@[simp] theorem piecesOf_append (first second : List Effect) :
    piecesOf streamID (first ++ second) = piecesOf streamID first ++ piecesOf streamID second :=
  List.filterMap_append

variable {effects added : List Effect} {endStream : Bool} {data : Bytes}

theorem Quiet.piecesOf_eq (hquiet : Quiet streamID added) : piecesOf streamID added = [] := by
  rw [piecesOf, List.filterMap_eq_nil_iff]
  intro effect heffect
  split
  · exact if_neg (hquiet _ heffect)
  · rfl

theorem HeaderBlock.piecesOf_eq (hblock : HeaderBlock written endStream added) :
    piecesOf streamID added = [] := by
  obtain ⟨before, endHeaders, fragment, after, rfl, hbefore, hafter⟩ := hblock
  rw [piecesOf_append, (quiet_of_neutral hbefore streamID).piecesOf_eq]
  exact (quiet_of_neutral hafter streamID).piecesOf_eq

theorem piecesOf_data (endStream : Bool) (payload : Bytes) (added : List Effect) :
    piecesOf streamID (.wrote (.data streamID endStream payload) :: added) =
      ⟨payload, endStream⟩ :: piecesOf streamID added := by
  simp [piecesOf]

/-- Where trailers of the stream stand among the added effects, the payload written until then
is `data`. -/
def TrailersBehind (streamID : UInt32) (data : Bytes) (effects added : List Effect) : Prop :=
  ∀ part endHeaders fragment,
    part ++ [.wrote (.headers streamID true endHeaders fragment)] <+: added →
    contents (piecesOf streamID (effects ++ part)) = data

theorem TrailersBehind.nil : TrailersBehind streamID data effects [] := by
  intro part endHeaders fragment hprefix
  simp at hprefix

section

variable (htrailers : TrailersBehind streamID data effects first)
include htrailers

theorem TrailersBehind.snoc (hlast : ∀ endHeaders fragment,
    effect = .wrote (.headers streamID true endHeaders fragment) →
      contents (piecesOf streamID (effects ++ first)) = data) :
    TrailersBehind streamID data effects (first ++ [effect]) := by
  intro part endHeaders fragment hprefix
  rcases List.prefix_concat_iff.mp hprefix with heq | hprefix
  · obtain ⟨rfl, hsame⟩ := List.append_inj' heq rfl
    exact hlast endHeaders fragment (List.singleton_inj.mp hsame).symm
  · exact htrailers part endHeaders fragment hprefix

theorem TrailersBehind.quiet (hquiet : Quiet streamID added) :
    TrailersBehind streamID data effects (first ++ added) := by
  induction added generalizing first with
  | nil => simpa using htrailers
  | cons effect added ih =>
    obtain ⟨heffect, hadded⟩ := List.forall_mem_cons.mp hquiet
    rw [List.append_cons]
    refine ih (htrailers.snoc ?_) hadded
    rintro endHeaders fragment rfl
    exact absurd ⟨rfl, rfl⟩ heffect

theorem TrailersBehind.block (hblock : HeaderBlock streamID endStream added)
    (hdone : contents (piecesOf streamID (effects ++ first)) = data) :
    TrailersBehind streamID data effects (first ++ added) := by
  obtain ⟨before, endHeaders, fragment, after, rfl, hbefore, hafter⟩ := hblock
  have hquiet := quiet_of_neutral hbefore streamID
  rw [List.append_cons, ← List.append_assoc, ← List.append_assoc]
  refine ((htrailers.quiet hquiet).snoc ?_).quiet (quiet_of_neutral hafter streamID)
  intro _ _ _
  simpa [hquiet.piecesOf_eq] using hdone

end

end Views

/-! ## What a step does to one stream -/

/-- The items of a stream, if it is established. -/
def LoopyWriter.items (l : LoopyWriter hpack) (streamID : UInt32) : Option (List StreamItem) :=
  (l.estdStreams.lookup streamID).map OutStream.itl

variable (hpack) in
/-- The list of a stream before a step, the items that the step adds to it, the effects of the
step and the list after it. -/
inductive Moves (streamID : UInt32) : Option (List StreamItem) → List StreamItem → List Effect →
    Option (List StreamItem) → Prop
  | stay {items : Option (List StreamItem)} {added : List Effect}
      (hquiet : Quiet streamID added) : Moves streamID items [] added items
  | gone {items : Option (List StreamItem)} {added : List Effect}
      (hquiet : Quiet streamID added) : Moves streamID items [] added none
  | opened {added : List Effect}
      (hadded : Quiet streamID added ∨ ∃ endStream, HeaderBlock streamID endStream added) :
      Moves streamID none [] added (some [])
  | queued {itl : List StreamItem} (item : StreamItem) :
      Moves streamID (some itl) [item] [] (some (itl ++ [item]))
  | trailed {added : List Effect} {endStream : Bool}
      (hblock : HeaderBlock streamID endStream added) : Moves streamID (some []) [] added none
  | sent {l : LoopyWriter hpack} {str : OutStream} {df : DataFrame} {rest : List StreamItem}
      {before after : List Effect} (cut : Cut l str df) (hbefore : Quiet streamID before)
      (hafter : Quiet streamID after) :
      Moves streamID (some (.data df :: rest)) []
        (before ++ .wrote (.data streamID cut.piece.last cut.piece.content) :: after)
        (some (cut.itl rest))
  | sentTrailers {l : LoopyWriter hpack} {str : OutStream} {df : DataFrame}
      {rest more : List StreamItem} {h : HeaderFrame} {before after : List Effect}
      {endStream : Bool} (cut : Cut l str df) (hbefore : Quiet streamID before)
      (hrest : cut.itl rest = .header h :: more) (hblock : HeaderBlock streamID endStream after) :
      Moves streamID (some (.data df :: rest)) []
        (before ++ .wrote (.data streamID cut.piece.last cut.piece.content) :: after) none

/-- The items that have entered the list are those that have been taken from
it, all of them data, and those in it; only the first of these may have been
cut already. -/
def Aligned (queue itl : List StreamItem) : Prop :=
  ∃ finished rest, queue = finished ++ rest ∧ (∀ item ∈ finished, item.isData = true) ∧
    (itl = rest ∨ ∃ df left more, rest = .data df :: more ∧ itl = .data left :: more)

theorem Aligned.nil : Aligned [] [] :=
  ⟨[], [], rfl, by simp, .inl rfl⟩

theorem Aligned.append (haligned : Aligned queue itl) (item : StreamItem) :
    Aligned (queue ++ [item]) (itl ++ [item]) := by
  obtain ⟨finished, rest, rfl, hdata, hrest⟩ := haligned
  refine ⟨finished, rest ++ [item], by simp, hdata, ?_⟩
  rcases hrest with rfl | ⟨df, left, more, rfl, rfl⟩
  · exact .inl rfl
  · exact .inr ⟨df, left, more ++ [item], rfl, rfl⟩

theorem Aligned.cut (haligned : Aligned queue (.data df :: rest)) (cut : Cut l str df) :
    Aligned queue (cut.itl rest) := by
  obtain ⟨finished, todo, rfl, hdata, htodo⟩ := haligned
  obtain ⟨whole, rfl⟩ : ∃ whole, todo = .data whole :: rest := by
    rcases htodo with rfl | ⟨whole, left, more, rfl, heq⟩
    · exact ⟨df, rfl⟩
    · exact ⟨whole, by rw [(List.cons.inj heq).2]⟩
  unfold Cut.itl
  split
  · refine ⟨finished ++ [.data whole], rest, by simp, ?_, .inl rfl⟩
    intro item hitem
    rcases List.mem_append.mp hitem with hmem | hmem
    · exact hdata item hmem
    · rw [List.mem_singleton.mp hmem]
      rfl
  · exact ⟨finished, .data whole :: rest, rfl, hdata, .inr ⟨whole, cut.left, rest, rfl, rfl⟩⟩

/-- Trailers at the head of the list have all data queued before them behind them. -/
theorem Aligned.takeWhile_header (haligned : Aligned queue (.header h :: more)) :
    queue = queue.takeWhile StreamItem.isData ++ .header h :: more := by
  obtain ⟨finished, rest, rfl, hdata, hrest⟩ := haligned
  rcases hrest with rfl | ⟨df, left, more, rfl, heq⟩
  · rw [List.takeWhile_append_of_pos hdata]
    simp [StreamItem.isData]
  · cases (List.cons.inj heq).1

theorem Aligned.takeWhile_nil (haligned : Aligned queue []) :
    queue.takeWhile StreamItem.isData = queue := by
  obtain ⟨finished, rest, rfl, hdata, hrest⟩ := haligned
  rcases hrest with rfl | ⟨df, left, more, rfl, heq⟩
  · rw [List.takeWhile_append_of_pos hdata]
    rfl
  · cases heq

/-- What was queued for a stream and what was written for it agree with its list. -/
structure Tracks (queue : List StreamItem) (pieces : List (Piece UInt8))
    (items : Option (List StreamItem)) : Prop where
  sending : ∀ itl, items = some itl → Aligned queue itl ∧
    InFlight (messagesOf queue) pieces (messagesOf itl)
  flight : ∃ todo, InFlight (messagesOf queue) pieces todo

/-- Sending a piece of the first data frame. -/
theorem InFlight.cut {queue pieces : List (Piece UInt8)}
    (hflight : InFlight queue pieces (messagesOf (.data df :: rest))) (cut : Cut l str df) :
    InFlight queue (pieces ++ [cut.piece]) (messagesOf (cut.itl rest)) := by
  have hsplit := cut.piece_append_left
  unfold Cut.itl
  split
  next hnil =>
    have hpiece : cut.piece = df.message := by
      have hlast : cut.piece.last = df.message.last := by
        simp [Cut.piece, hnil, DataFrame.message]
      have hcontent : cut.piece.content = df.message.content := by
        rw [← hsplit]
        simp [DataFrame.message, hnil]
      cases hcut : cut.piece
      cases hmessage : df.message
      simp_all
    rw [hpiece]
    exact hflight.sendRest
  next hleft =>
    have hne : cut.left.message.content ≠ [] := by
      simpa [DataFrame.message] using hleft
    have hpiece : cut.piece = ⟨cut.piece.content, false⟩ := by
      simp [Cut.piece, hleft]
    have hmessage : df.message =
        ⟨cut.piece.content ++ cut.left.message.content, cut.left.message.last⟩ := by
      rw [hsplit]
      rfl
    rw [messagesOf_data, hmessage] at hflight
    rw [hpiece, messagesOf_data]
    exact hflight.sendPart hne

section Tracking

variable {streamID : UInt32} {effects added : List Effect} {pieces : List (Piece UInt8)}
  {items next : Option (List StreamItem)} {queued : List StreamItem}

theorem Tracks.of_some (haligned : Aligned queue itl)
    (hflight : InFlight (messagesOf queue) pieces (messagesOf itl)) :
    Tracks queue pieces (some itl) := by
  refine ⟨?_, ⟨_, hflight⟩⟩
  rintro _ ⟨⟩
  exact ⟨haligned, hflight⟩

theorem Tracks.nil : Tracks [] [] (some []) := .of_some .nil .nil

theorem Tracks.gone (htracks : Tracks queue pieces items) : Tracks queue pieces none :=
  ⟨by simp, htracks.flight⟩

theorem Tracks.enqueue (htracks : Tracks queue pieces (some itl)) (item : StreamItem) :
    Tracks (queue ++ [item]) pieces (some (itl ++ [item])) := by
  obtain ⟨haligned, hflight⟩ := htracks.sending itl rfl
  refine .of_some (haligned.append item) ?_
  rw [messagesOf_append, messagesOf_append]
  exact hflight.enqueue _

theorem Tracks.send (htracks : Tracks queue pieces (some (.data df :: rest)))
    (cut : Cut l str df) : Tracks queue (pieces ++ [cut.piece]) (some (cut.itl rest)) := by
  obtain ⟨haligned, hflight⟩ := htracks.sending _ rfl
  exact .of_some (haligned.cut cut) (InFlight.cut hflight cut)

/-- Trailers at the head of the list go out behind the data. -/
theorem Tracks.done_of_header (htracks : Tracks queue pieces (some (.header h :: more))) :
    contents pieces = contents (messagesOf (queue.takeWhile StreamItem.isData)) := by
  obtain ⟨haligned, hflight⟩ := htracks.sending _ rfl
  have hcontents := hflight.contents_eq
  rw [haligned.takeWhile_header, messagesOf_append, messagesOf_header, contents_append]
    at hcontents
  exact List.append_cancel_right hcontents

theorem Tracks.done_of_nil (htracks : Tracks queue pieces (some [])) :
    contents pieces = contents (messagesOf (queue.takeWhile StreamItem.isData)) := by
  obtain ⟨haligned, hflight⟩ := htracks.sending _ rfl
  have hcontents := hflight.contents_eq
  rw [haligned.takeWhile_nil]
  simpa [messagesOf] using hcontents

section

variable (hmoves : Moves hpack streamID items queued added next)
  (htracks : Tracks queue (piecesOf streamID effects) items)
  (hopened : items = none → next = some [] → queue = [] ∧ piecesOf streamID effects = [])
include hmoves htracks hopened

theorem Moves.tracks : Tracks (queue ++ queued) (piecesOf streamID (effects ++ added)) next := by
  rw [piecesOf_append]
  cases hmoves with
  | stay hquiet => simpa [hquiet.piecesOf_eq] using htracks
  | gone hquiet => simpa [hquiet.piecesOf_eq] using htracks.gone
  | opened hadded =>
    obtain ⟨hqueue, hpieces⟩ := hopened rfl rfl
    have hnil : piecesOf streamID added = [] :=
      hadded.elim Quiet.piecesOf_eq fun ⟨_, hblock⟩ => hblock.piecesOf_eq
    simpa [hqueue, hpieces, hnil] using Tracks.nil
  | queued item => simpa [piecesOf] using htracks.enqueue item
  | trailed hblock => simpa [hblock.piecesOf_eq] using htracks.gone
  | sent cut hbefore hafter =>
    simpa [piecesOf_data, hbefore.piecesOf_eq, hafter.piecesOf_eq] using htracks.send cut
  | sentTrailers cut hbefore hrest hblock =>
    simpa [piecesOf_data, hbefore.piecesOf_eq, hblock.piecesOf_eq] using (htracks.send cut).gone

/-- A step writes trailers of the stream only behind the data that was queued before them. -/
theorem Moves.trailers : TrailersBehind streamID
    (contents (messagesOf (queue.takeWhile StreamItem.isData))) effects added := by
  cases hmoves with
  | stay hquiet | gone hquiet => exact TrailersBehind.nil.quiet hquiet
  | opened hadded =>
    obtain ⟨rfl, hpieces⟩ := hopened rfl rfl
    rcases hadded with hquiet | ⟨endStream, hblock⟩
    · exact TrailersBehind.nil.quiet hquiet
    · exact TrailersBehind.nil.block hblock (by simp [hpieces, messagesOf])
  | queued item => exact .nil
  | trailed hblock => exact TrailersBehind.nil.block hblock (by simpa using htracks.done_of_nil)
  | sent cut hbefore hafter =>
    rw [List.append_cons]
    exact ((TrailersBehind.nil.quiet hbefore).snoc (by simp)).quiet hafter
  | sentTrailers cut hbefore hrest hblock =>
    have hsent := htracks.send cut
    rw [hrest] at hsent
    rw [List.append_cons]
    refine ((TrailersBehind.nil.quiet hbefore).snoc (by simp)).block hblock ?_
    have hnil : piecesOf streamID [] = [] := rfl
    simpa [piecesOf_data, hbefore.piecesOf_eq, hnil] using hsent.done_of_header

end

end Tracking

namespace LoopyWriter

variable {l next popped : LoopyWriter hpack} {streamID found : UInt32} {str changed : OutStream}
  {rest : List StreamItem} {result : Except LoopyErr Bool} {cut : Cut l str df}

theorem items_of_lookup (hlookup : l.estdStreams.lookup streamID = some str) :
    l.items streamID = some str.itl := by
  simp [items, hlookup]

theorem items_setStream (l : LoopyWriter hpack) (str : OutStream) (streamID : UInt32) :
    (l.setStream str).items streamID =
      if streamID = str.id then some str.itl else l.items streamID := by
  unfold items
  rw [lookup_setStream]
  split <;> rfl

theorem items_forget (l : LoopyWriter hpack) (gone streamID : UInt32) :
    (l.forget gone).items streamID = if streamID = gone then none else l.items streamID := by
  unfold items
  rw [lookup_forget]
  split <;> rfl

theorem items_congr (hstreams : next.estdStreams = l.estdStreams) (streamID : UInt32) :
    next.items streamID = l.items streamID := by
  rw [items, hstreams, items]

theorem items_applySettings (howned : l.Owned) (env : Surroundings) (ss : List Setting)
    (streamID : UInt32) : (l.applySettings env ss).items streamID = l.items streamID := by
  unfold items
  rcases (applySettings_lookup howned env ss streamID).2 with heq | heq
  · rw [heq]
  · rw [heq, Option.map_map]
    congr 1
    exact funext OutStream.resumed_itl

/-- A stream changes but not its list. -/
theorem moves_keep (hlookup : l.estdStreams.lookup found = some str) (hid : str.id = found)
    (hnext : next.estdStreams = (l.setStream changed).estdStreams) (hchanged : changed.id = str.id)
    (hitl : changed.itl = str.itl) (streamID : UInt32) :
    Moves hpack streamID (l.items streamID) [] [] (next.items streamID) := by
  have hitems : next.items streamID = l.items streamID := by
    rw [items_congr hnext, items_setStream, hchanged, hid, hitl]
    split
    next heq => rw [heq, items_of_lookup hlookup]
    next => rfl
  rw [hitems]
  exact .stay (by simp [Quiet])

/-- What an item adds to the list of the stream. -/
def queues (l : LoopyWriter hpack) (item : CbItem) (streamID : UInt32) : List StreamItem :=
  (l.queued item).toList.filter fun added => added.streamID = streamID

theorem queues_of_none {item : CbItem} (hqueued : l.queued item = none) (streamID : UInt32) :
    l.queues item streamID = [] := by
  rw [queues, hqueued]
  rfl

/-- An item joins the list of one stream. -/
theorem moves_enqueue {item : CbItem} {added : StreamItem}
    (hlookup : l.estdStreams.lookup found = some str) (hid : str.id = found)
    (hqueued : l.queued item = some added) (hadded : added.streamID = found)
    (hnext : next.estdStreams = (l.setStream changed).estdStreams)
    (hchanged : changed.id = str.id) (hitl : changed.itl = str.itl ++ [added]) (streamID : UInt32) :
    Moves hpack streamID (l.items streamID) (l.queues item streamID) [] (next.items streamID) := by
  rw [items_congr hnext, items_setStream, hchanged, hid, queues, hqueued]
  by_cases hfound : streamID = found
  · rw [if_pos hfound, hfound, items_of_lookup hlookup, hitl]
    simpa [hadded] using Moves.queued added
  · rw [if_neg hfound]
    simpa [hadded, Ne.symm hfound] using Moves.stay (by simp [Quiet])

theorem queued_of_registers {item : CbItem} (hregisters : item.registers l.side = some streamID) :
    l.queued item = none := by
  cases item with
  | headerFrame h =>
    refine if_neg fun hqueued => ?_
    simp [CbItem.registers, hqueued.1] at hregisters
  | dataFrame df => cases hregisters
  | _ => rfl

theorem Handled.moves {env : Surroundings} {item : CbItem} {added : List Effect}
    {result : Except LoopyErr Unit} (hhandled : Handled env l item next added result)
    (hsound : l.Sound side) (hsteady : l.Steady)
    (hfresh : ∀ streamID, item.registers side = some streamID →
      l.estdStreams.lookup streamID = none) (streamID : UInt32) :
    Moves hpack streamID (l.items streamID) (l.queues item streamID) added
      (next.items streamID) := by
  obtain ⟨xs, hscheduled, -⟩ := hsteady
  cases hhandled with
  | kept draining hsame hneutral _ hqueued =>
    rw [items_congr hsame.estdStreams, queues_of_none hqueued]
    exact .stay (quiet_of_neutral hneutral streamID)
  | connWindow increment => exact .stay (by simp [Quiet])
  | credited increment hlookup hcredit _ =>
    obtain ⟨hid, -⟩ := hsound.owned _ _ hlookup
    subst hcredit
    exact moves_keep hlookup hid (by rfl) (by rfl) (by rfl) streamID
  | resumed increment hlookup _ =>
    obtain ⟨hid, -⟩ := hsound.owned _ _ hlookup
    exact moves_keep hlookup hid (by rfl) (by rfl) (by rfl) streamID
  | settings ss hsame hneutral =>
    rw [items_congr hsame.estdStreams, items_applySettings hsound.owned]
    exact .stay (quiet_of_neutral hneutral streamID)
  | registered registered hregisters hsame hadded =>
    have hnone := hfresh registered (hsound.side_eq ▸ hregisters)
    rw [items_congr hsame.estdStreams, items_setStream,
      queues_of_none (queued_of_registers hregisters)]
    split
    next heq =>
      have hitems : l.items streamID = none := by
        rw [heq, items]
        exact congrArg (Option.map OutStream.itl) hnone
      rw [hitems]
      rw [show streamID = registered from heq]
      exact .opened (hadded.imp_left fun hneutral => quiet_of_neutral hneutral registered)
    next hne =>
      rcases hadded with hneutral | ⟨endStream, hblock⟩
      · exact .stay (quiet_of_neutral hneutral streamID)
      · exact .stay (hblock.quiet hne)
  | @queuedTrailers h str hside hlookup hend hstate =>
    obtain ⟨hid, -⟩ := hsound.owned _ _ hlookup
    have hqueued : l.queued (.headerFrame h) = some (.header h) :=
      if_pos ⟨hside, hend, str, hlookup, hstate⟩
    exact moves_enqueue hlookup hid hqueued rfl (by rfl) (by rfl) (by rfl) streamID
  | @startedData df _ hlookup _ | @appendedData df _ hlookup _ =>
    obtain ⟨hid, -⟩ := hsound.owned _ _ hlookup
    have hqueued : l.queued (.dataFrame df) = some (.data df) :=
      if_pos (AList.lookup_isSome.mp (Option.isSome_of_eq_some hlookup))
    exact moves_enqueue hlookup hid hqueued rfl (by rfl) (by rfl) (by rfl) streamID
  | @wroteTrailers h _ _ _ _ hlookup hstate hblock _ hsame =>
    have hqueued : l.queued (.headerFrame h) = none :=
      if_neg (by simp [Option.mem_def, hlookup, hstate])
    rw [items_congr hsame.estdStreams, items_forget, queues_of_none hqueued]
    split
    next heq =>
      have hnil := (hscheduled.shaped _ _ hlookup).empty_iff.mp hstate
      rw [heq, items_of_lookup hlookup, hnil]
      exact .trailed hblock
    next hne => exact .stay (hblock.quiet hne)
  | forgotten hsame hneutral _ =>
    rw [items_congr hsame.estdStreams, items_forget, queues_of_none rfl]
    split
    next => exact .gone (quiet_of_neutral hneutral streamID)
    next => exact .stay (quiet_of_neutral hneutral streamID)

theorem streamID_of_itl (hitems : ∀ item ∈ cut.itl rest, item.OwnedBy found)
    (hitl : (cut.stream rest).itl = .header h :: more) : h.streamID = found := by
  change cut.itl rest = _ at hitl
  rw [hitl] at hitems
  exact (hitems _ List.mem_cons_self).1

/-- The stream whose piece has been sent keeps the rest of its list, or sends
its trailers and goes. -/
theorem Disposed.moves {before after : List Effect}
    (hdisposed : Disposed popped (cut.stream rest) next after result)
    (hresult : result ≠ .error .panicked) (hid : str.id = streamID)
    (hitems : ∀ item ∈ cut.itl rest, item.OwnedBy streamID) (hbefore : Quiet streamID before) :
    Moves hpack streamID (some (.data df :: rest)) []
      (before ++ .wrote (.data streamID cut.piece.last cut.piece.content) :: after)
      (next.items streamID) := by
  have hkept : ∀ state, (popped.setStream { cut.stream rest with state := state }).items
      streamID = some (cut.itl rest) := by
    intro state
    rw [items_setStream]
    exact if_pos hid.symm
  cases hdisposed with
  | drained _ hsame | blocked _ _ hsame =>
    rw [items_congr hsame.estdStreams, hkept]
    exact .sent cut hbefore (by simp [Quiet])
  | requeued _ hsame =>
    rw [items_congr hsame.estdStreams, items_congr (activate_estdStreams _ _),
      hkept (cut.stream rest).state]
    exact .sent cut hbefore (by simp [Quiet])
  | trailed hitl hblock _ hsame =>
    rw [streamID_of_itl hitems hitl] at hblock hsame
    rw [items_congr hsame.estdStreams, items_forget, if_pos rfl]
    exact .sentTrailers cut hbefore hitl hblock
  | trailedNil => exact absurd rfl hresult

/-- The other streams do not notice. -/
theorem Disposed.others {after : List Effect}
    (hdisposed : Disposed popped (cut.stream rest) next after result) (hid : str.id = found)
    (hitems : ∀ item ∈ cut.itl rest, item.OwnedBy found) (hne : streamID ≠ found) :
    Quiet streamID after ∧ next.items streamID = popped.items streamID := by
  have hkept : ∀ state, (popped.setStream { cut.stream rest with state := state }).items
      streamID = popped.items streamID := by
    intro state
    rw [items_setStream]
    exact if_neg (hid.symm ▸ hne)
  have hset := hkept (cut.stream rest).state
  cases hdisposed with
  | drained _ hsame | blocked _ _ hsame =>
    exact ⟨by simp [Quiet], by rw [items_congr hsame.estdStreams, hkept]⟩
  | requeued _ hsame =>
    refine ⟨by simp [Quiet], ?_⟩
    rw [items_congr hsame.estdStreams, items_congr (activate_estdStreams _ _)]
    exact hset
  | trailed hitl hblock _ hsame =>
    rw [streamID_of_itl hitems hitl] at hblock hsame
    refine ⟨hblock.quiet hne, ?_⟩
    rw [items_congr hsame.estdStreams, items_forget, if_neg hne]
    exact hset
  | trailedNil hitl _ hblock hsame =>
    rw [streamID_of_itl hitems hitl] at hblock
    refine ⟨hblock.quiet hne, ?_⟩
    rw [items_congr hsame.estdStreams]
    exact hset

theorem Turn.moves (hturn : Turn l next result) (hsound : l.Sound side)
    (hresult : result ≠ .error .panicked) : ∃ added, next.effects = l.effects ++ added ∧
      ∀ streamID, Moves hpack streamID (l.items streamID) [] added (next.items streamID) := by
  cases hturn with
  | idle => exact ⟨[], by simp, fun streamID => .stay (by simp [Quiet])⟩
  | crashed => exact absurd rfl hresult
  | parked _ _ hlookup _ _ =>
    obtain ⟨hid, -⟩ := hsound.owned _ _ hlookup
    exact ⟨[], by simp [setStream],
      fun streamID => moves_keep hlookup hid (by rfl) (by rfl) (by rfl) streamID⟩
  | @sent found _ str df rest _ _ before after _ hlookup hitl cut heffects hbefore hdisposed =>
    obtain ⟨hid, hitems⟩ := hsound.owned _ _ hlookup
    rw [hitl] at hitems
    have hself : df.streamID = found := hitems _ List.mem_cons_self
    have hleft := stream_owned cut hitems
    rw [hself] at heffects
    refine ⟨_, heffects, fun streamID => ?_⟩
    by_cases heq : streamID = found
    · subst heq
      rw [items_of_lookup hlookup, hitl]
      exact hdisposed.moves hresult hid hleft (quiet_of_neutral hbefore _)
    · obtain ⟨hquiet, hsame⟩ := hdisposed.others hid hleft heq
      rw [hsame]
      refine .stay ((quiet_of_neutral hbefore streamID).append (.cons ?_ hquiet))
      exact fun hfound => heq (Eq.symm hfound)

end LoopyWriter

/-! ## Every run -/

theorem Moves.of_none {queued : List StreamItem}
    (hmoves : Moves hpack streamID none queued added none) :
    queued = [] ∧ piecesOf streamID added = [] := by
  cases hmoves with
  | stay hquiet | gone hquiet => exact ⟨rfl, hquiet.piecesOf_eq⟩

def LoopyEvent.queues (l : LoopyWriter hpack) (streamID : UInt32) : LoopyEvent → List StreamItem
  | .handle _ item => l.queues item streamID
  | .processData => []

variable (hpack) in
/-- The items that the events of a run add to the stream's list, in their order. -/
def queuedOf (side : Side) (streamID : UInt32) (events : List LoopyEvent) : List StreamItem :=
  Machine.outputs loopyStep (fun state event _ => event.queues state.writer streamID)
    ⟨newLoopyWriter hpack side Framer.reliable, none⟩ events

variable (hpack) in
/-- When an event of the run writes trailers of the stream, the payload written before them is the
data that the events before it have queued, up to the first trailers. -/
def TrailersAfterData (side : Side) (streamID : UInt32) (events : List LoopyEvent) : Prop :=
  ∀ past event state next added, past ++ [event] <+: events →
    loopyRun hpack side past = some state → loopyStep state event = some next →
    next.writer.effects = state.writer.effects ++ added →
    TrailersBehind streamID
      (contents (messagesOf ((queuedOf hpack side streamID past).takeWhile StreamItem.isData)))
      state.writer.effects added

open LoopyWriter

theorem items_eq_none : l.items streamID = none ↔ streamID ∉ l.estdStreams := by
  rw [items, Option.map_eq_none_iff, AList.lookup_eq_none]

/-- What a step of the loop does to a stream. A stream that appears has been
registered by the step. -/
theorem loopyStep_moves {past : List LoopyEvent} {state next : LoopyState hpack}
    {event : LoopyEvent} (hpast : loopyRun hpack side past = some state)
    (hstep : loopyStep state event = some next) (honce : RegisteredOnce side (past ++ [event]))
    (streamID : UInt32) : ∃ added, next.writer.effects = state.writer.effects ++ added ∧
      Moves hpack streamID (state.writer.items streamID) (event.queues state.writer streamID) added
        (next.writer.items streamID) ∧
      (state.writer.items streamID = none → next.writer.items streamID ≠ none →
        event.registers side = some streamID) := by
  simp only [ne_eq, items_eq_none, not_not]
  have hsound := loopyRun_sound hpast
  obtain ⟨hsteady, -⟩ := loopyRun_steady hpast honce.of_append
  obtain ⟨-, hcases⟩ := loopyStep_cases hsound.reliable hstep
  rcases hcases with ⟨env, item, added, result, rfl, -, heffects, hhandled⟩ |
    ⟨result, rfl, -, hturn⟩
  · refine ⟨added, heffects, hhandled.moves hsound hsteady
      (fun _ => lookup_eq_none_of_registeredOnce hpast honce) streamID, ?_⟩
    intro hnone hsome
    rcases hhandled.mem_or_registers hsound.owned hsome with hmem | hregisters
    · exact absurd hmem hnone
    · exact hsound.side_eq ▸ hregisters
  · obtain ⟨-, hresult⟩ := hsteady.turn hsound hturn
    obtain ⟨added, heffects, hmoves⟩ := hturn.moves hsound hresult
    refine ⟨added, heffects, hmoves streamID, fun hnone hsome => ?_⟩
    exact absurd (hturn.mem hsound.owned hsome) hnone

theorem registrations_append (side : Side) (past : List LoopyEvent) (event : LoopyEvent) :
    registrations side (past ++ [event]) = registrations side past ++ registrations side [event] :=
  List.filterMap_append

/-- A stream that a step opens was not registered before. -/
theorem RegisteredOnce.not_mem {past : List LoopyEvent} {event : LoopyEvent}
    (honce : RegisteredOnce side (past ++ [event]))
    (hevent : event.registers side = some streamID) : streamID ∉ registrations side past := by
  intro hmem
  change (registrations side (past ++ [event])).Nodup at honce
  rw [registrations_append] at honce
  exact (List.nodup_append.mp honce).2.2 streamID hmem streamID
    (by simp [registrations, hevent]) rfl

section Runs

variable {events : List LoopyEvent} {final : LoopyState hpack}
  (hrun : loopyRun hpack side events = some final) (honce : RegisteredOnce side events)
include hrun honce

theorem loopyRun_tracks (streamID : UInt32) :
    Tracks (queuedOf hpack side streamID events) (piecesOf streamID final.writer.effects)
        (final.writer.items streamID) ∧
      (streamID ∉ registrations side events → queuedOf hpack side streamID events = [] ∧
        piecesOf streamID final.writer.effects = []) := by
  refine Machine.run_invariant (fun past state => RegisteredOnce side past →
    Tracks (queuedOf hpack side streamID past) (piecesOf streamID state.writer.effects)
        (state.writer.items streamID) ∧
      (streamID ∉ registrations side past → queuedOf hpack side streamID past = [] ∧
        piecesOf streamID state.writer.effects = [])) ?_ ?_ hrun honce
  · exact fun _ => ⟨⟨by simp [items, newLoopyWriter], [], .nil⟩, fun _ => ⟨rfl, rfl⟩⟩
  · intro past state event next hpast hinvariant hnext honce
    obtain ⟨htracks, huntouched⟩ := hinvariant honce.of_append
    obtain ⟨added, heffects, hmoves, hregistered⟩ := loopyStep_moves hpast hnext honce streamID
    rw [heffects, queuedOf, Machine.outputs_append_singleton hpast hnext]
    refine ⟨hmoves.tracks htracks ?_, ?_⟩
    · intro hnone hopened
      exact huntouched (honce.not_mem (hregistered hnone (by simp [hopened])))
    · intro hfresh
      rw [registrations_append, List.mem_append, not_or] at hfresh
      have hnone : state.writer.items streamID = none :=
        items_eq_none.mpr fun hmem => hfresh.1 (mem_registrations_of_mem hpast hmem)
      have hstays : next.writer.items streamID = none := by
        by_contra hsome
        exact hfresh.2 (by simp [registrations, hregistered hnone hsome])
      rw [hnone, hstays] at hmoves
      obtain ⟨hqueue, hpieces⟩ := huntouched hfresh.1
      obtain ⟨hqueued, hadded⟩ := hmoves.of_none
      rw [queuedOf] at hqueue
      simp [hqueue, hqueued, hpieces, hadded]

omit hrun in
theorem trailersAfterData (streamID : UInt32) : TrailersAfterData hpack side streamID events := by
  rintro past event state next added ⟨later, rfl⟩ hpast hnext hadded
  have honce : RegisteredOnce side (past ++ [event]) := by
    rw [RegisteredOnce, List.filterMap_append] at honce
    exact (List.nodup_append.mp honce).1
  obtain ⟨htracks, huntouched⟩ := loopyRun_tracks hpast honce.of_append streamID
  obtain ⟨_, heffects, hmoves, hregistered⟩ := loopyStep_moves hpast hnext honce streamID
  obtain rfl := List.append_cancel_left (hadded.symm.trans heffects)
  refine hmoves.trailers htracks fun hnone hopened => ?_
  exact huntouched (honce.not_mem (hregistered hnone (by simp [hopened])))

/-- For every stream, the payload written is a prefix of the data that the run has queued for it;
the DATA frames carry the queued data frames one after the other, with the
END_STREAM flag on exactly those frames that complete a data frame marked with
it; and trailers are written behind all data queued before them. -/
theorem loopyRun_payload (streamID : UInt32) : contents (piecesOf streamID final.writer.effects) <+:
        contents (messagesOf (queuedOf hpack side streamID events)) ∧
      (∃ todo, InFlight (messagesOf (queuedOf hpack side streamID events))
        (piecesOf streamID final.writer.effects) todo) ∧
      TrailersAfterData hpack side streamID events := by
  obtain ⟨todo, hflight⟩ := (loopyRun_tracks hrun honce streamID).1.flight
  exact ⟨⟨_, hflight.contents_eq⟩, ⟨todo, hflight⟩, trailersAfterData honce streamID⟩

end Runs

/-- A server answers on one stream with a message that ends in trailers. -/
def answered : List LoopyEvent :=
  [.handle Surroundings.quiet (.registerStream 1),
    .handle Surroundings.quiet (.dataFrame ⟨1, false, [0, 0, 0, 0, 1], [7], false⟩),
    .handle Surroundings.quiet (.headerFrame
      ⟨1, [], true, none, some ⟨1, false, ErrCode.no, .noop, none⟩, rfl, by simp⟩),
    .processData]

theorem loopyRun_payload_answered : ∃ final,
    loopyRun Hpack.verbatim .serverSide answered = some final ∧
      RegisteredOnce .serverSide answered ∧
      piecesOf 1 final.writer.effects = [⟨[0, 0, 0, 0, 1, 7], false⟩] ∧
      contents (piecesOf 1 final.writer.effects) <+:
        contents (messagesOf (queuedOf Hpack.verbatim .serverSide 1 answered)) ∧
      (∃ todo, InFlight (messagesOf (queuedOf Hpack.verbatim .serverSide 1 answered))
        (piecesOf 1 final.writer.effects) todo) ∧
      TrailersAfterData Hpack.verbatim .serverSide 1 answered := by
  obtain ⟨final, hrun, hpieces⟩ : ∃ final,
      loopyRun Hpack.verbatim .serverSide answered = some final ∧
        piecesOf 1 final.writer.effects = [⟨[0, 0, 0, 0, 1, 7], false⟩] := ⟨_, rfl, rfl⟩
  exact ⟨final, hrun, by decide, hpieces, loopyRun_payload hrun (by decide) 1⟩

end Kitex.Http2
