import Rsloop.Text.Newlines

/-!
# The decoder of text pipes

`_TextNewlineDecoder` decodes a pipe's output piece by piece with the incremental
decoder of a codec and translates line ends. Up to two carriage returns at the end
of a piece are held back, since a line feed may follow.
-/

namespace Rsloop.Process

open Rsloop.Text List

/-! ## Codecs -/

/-- `codecs.getincrementaldecoder(encoding)(errors)`; `none` stands for a decoding
error. -/
structure IncrementalDecoder where
  State : Type
  start : State
  decode : State → List UInt8 → Bool → Option (CodePoints × State)

namespace IncrementalDecoder

def feed (codec : IncrementalDecoder) (s : codec.State) :
    List (List UInt8) → Option (List CodePoints × codec.State)
  | [] => some ([], s)
  | chunk :: rest =>
    match codec.decode s chunk false with
    | none => none
    | some (piece, s) =>
      (codec.feed s rest).map fun (pieces, s) => (piece :: pieces, s)

def outputs (codec : IncrementalDecoder) (chunks : List (List UInt8)) : Option (List CodePoints) :=
  match codec.feed codec.start chunks with
  | none => none
  | some (pieces, s) => (codec.decode s [] true).map fun (tail, _) => pieces ++ [tail]

end IncrementalDecoder

/-- A codec whose incremental decoder gives the decoding of the whole input,
however it is cut. -/
structure Codec extends IncrementalDecoder where
  decodeAll : List UInt8 → Option CodePoints
  correct : ∀ chunks text, decodeAll chunks.flatten = some text →
    ∃ pieces, toIncrementalDecoder.outputs chunks = some pieces ∧ pieces.flatten = text

/-! ## The decoder -/

structure TextNewlineDecoder (codec : IncrementalDecoder) where
  decoder : codec.State
  pending : CodePoints

/-- `_translate` -/
def translate (text : CodePoints) : CodePoints :=
  replace [cr] [lf] (replace [cr, lf] [lf] (replace [cr, cr, lf] [lf] text))

/-- The carriage returns among the last two characters, from the end on -/
def pendingLen (text : CodePoints) : Nat :=
  ((text.drop (text.length - 2)).reverse.takeWhile fun char =>
    decide (char = cr)).length

namespace TextNewlineDecoder

variable {codec : IncrementalDecoder}

def new (codec : IncrementalDecoder) : TextNewlineDecoder codec where
  decoder := codec.start
  pending := []

def decode (self : TextNewlineDecoder codec) (data : List UInt8) (final : Bool) :
    Option (CodePoints × TextNewlineDecoder codec) :=
  match codec.decode self.decoder data final with
  | none => none
  | some (output, decoder) =>
    let text := self.pending ++ output
    if final then
      some (translate text, ⟨decoder, []⟩)
    else
      let cut := text.length - pendingLen text
      some (translate (text.take cut), ⟨decoder, text.drop cut⟩)

def decodeChunks (self : TextNewlineDecoder codec) :
    List (List UInt8) → Option (List CodePoints × TextNewlineDecoder codec)
  | [] => some ([], self)
  | chunk :: rest =>
    match self.decode chunk false with
    | none => none
    | some (text, self) => (self.decodeChunks rest).map fun (texts, self) => (text :: texts, self)

/-- What `pipe_data_received` gets for the chunks, and the tail that
`pipe_connection_lost` gets. -/
def decodeStream (codec : IncrementalDecoder) (chunks : List (List UInt8)) :
    Option (List CodePoints × CodePoints) :=
  match (new codec).decodeChunks chunks with
  | none => none
  | some (texts, self) => (self.decode [] true).map fun (tail, _) => (texts, tail)

end TextNewlineDecoder

/-- The calls of `feed_data`: that for the tail is left out when it is empty. -/
def feedData (texts : List CodePoints) (tail : CodePoints) : List CodePoints :=
  texts ++ if tail = [] then [] else [tail]

/-! ## Cuts in front of a line feed -/

/-- A text is cut in front of a line feed that three or more carriage returns
precede. -/
def CutsRun (before after : CodePoints) : Prop :=
  [cr, cr, cr] <:+ before ∧ startsLine 0 after

instance (before after : CodePoints) : Decidable (CutsRun before after) :=
  inferInstanceAs (Decidable (_ ∧ _))

/-- No cut between the pieces is such a cut. -/
def KeepsRuns (before : CodePoints) : List CodePoints → Prop
  | [] => True
  | piece :: rest => ¬ CutsRun before piece ∧ KeepsRuns (before ++ piece) rest

instance decidableKeepsRuns (before : CodePoints) :
    (pieces : List CodePoints) → Decidable (KeepsRuns before pieces)
  | [] => .isTrue trivial
  | piece :: rest =>
    have := decidableKeepsRuns (before ++ piece) rest
    inferInstanceAs (Decidable (_ ∧ _))

variable {piece : CodePoints}

theorem keepsRuns_concat {before tail : CodePoints} {pieces : List CodePoints} :
    KeepsRuns before (pieces ++ [tail]) ↔
      KeepsRuns before pieces ∧ ¬ CutsRun (before ++ pieces.flatten) tail := by
  induction pieces generalizing before with
  | nil => simp [KeepsRuns]
  | cons piece rest ih => simp [KeepsRuns, ih, and_assoc]

/-! ## What is held back -/

/-- The text so far is what has been translated, and the carriage returns that are
held back. -/
structure Held (translated pending : CodePoints) : Prop where
  atMostTwo : pending = [] ∨ pending = [cr] ∨ pending = [cr, cr]
  whole : pending ≠ [cr, cr] → translated.getLast? ≠ some cr

theorem Held.new : Held [] [] where
  atMostTwo := .inl rfl
  whole := fun _ => by simp

theorem translate_eq_foldLines (text : CodePoints) :
    translate text = foldLines 2 text :=
  replace_cr_replace_crlf_replace_crcrlf text

/-- Where a run of carriage returns is cut, the last two are held back and the
others have been translated. -/
theorem Held.cutsRun_iff {translated pending text kept : CodePoints}
    (held : Held translated pending) (split : text ++ kept = pending ++ piece)
    (returns : ∀ symbol ∈ kept, symbol = cr) :
    CutsRun (translated ++ pending) piece ↔
      translated.getLast? = some cr ∧ startsLine 2 text := by
  constructor
  · rintro ⟨⟨init, run⟩, starts⟩
    have both : pending = [cr, cr] ∧ translated = init ++ [cr] := by
      rcases held.atMostTwo with rfl | rfl | rfl
      · refine absurd ?_ (held.whole nofun)
        rw [← append_nil translated, ← run]
        simp
      · refine absurd ?_ (held.whole nofun)
        have same : init ++ [cr, cr] = translated :=
          append_cancel_right (by simpa using run : (init ++ [cr, cr]) ++ [cr] = _)
        rw [← same]
        simp
      · exact ⟨rfl, (append_cancel_right
          (by simpa using run : (init ++ [cr]) ++ [cr, cr] = _)).symm⟩
    obtain ⟨rfl, rfl⟩ := both
    refine ⟨by simp, ?_⟩
    obtain ⟨rest, rfl⟩ : ∃ rest, piece = lf :: rest := by
      cases piece with
      | nil => cases starts
      | cons symbol rest => exact ⟨rest, by rw [of_decide_eq_true starts]⟩
    match text, split with
    | [], split => cases returns lf (by rw [← nil_append kept, split]; simp)
    | [_], split =>
      have same : kept = cr :: lf :: rest := tail_eq_of_cons_eq split
      cases returns lf (by rw [same]; simp)
    | [_, _], split =>
      have same : kept = lf :: rest := tail_eq_of_cons_eq (tail_eq_of_cons_eq split)
      cases returns lf (by rw [same]; simp)
    | _ :: _ :: _ :: _, split =>
      cases split
      rfl
  · rintro ⟨ends, starts⟩
    have both : pending = [cr, cr] := by
      by_contra fewer
      exact held.whole fewer ends
    subst both
    obtain ⟨init, rfl⟩ := List.getLast?_eq_some_iff.mp ends
    rcases startsLine_two starts with ⟨rest, rfl⟩ | ⟨rest, rfl⟩ | ⟨rest, rfl⟩
    · cases head_eq_of_cons_eq split
    · cases head_eq_of_cons_eq (tail_eq_of_cons_eq split)
    · have isPiece : lf :: (rest ++ kept) = piece := tail_eq_of_cons_eq (tail_eq_of_cons_eq split)
      exact ⟨⟨init, by simp⟩, isPiece ▸ rfl⟩

theorem Held.returns {translated pending : CodePoints}
    (held : Held translated pending) :
    ∀ symbol ∈ pending, symbol = cr := by
  rcases held.atMostTwo with rfl | rfl | rfl <;> simp

theorem length_translate_append (translated text : CodePoints) :
    (translate (translated ++ text)).length ≤
      (translate translated).length + (translate text).length := by
  simp only [translate_eq_foldLines]
  exact (length_foldLines_append 2 translated text).1

/-- What has been returned is right after another text if and only if it was
right before and no run is cut between the two. -/
theorem Held.translate_append_iff
    {translated pending text kept returned : CodePoints}
    (held : Held translated pending) (split : text ++ kept = pending ++ piece)
    (returns : ∀ symbol ∈ kept, symbol = cr)
    (bounded : (translate translated).length ≤ returned.length) :
    translate (translated ++ text) = returned ++ translate text ↔
      translate translated = returned ∧ ¬ CutsRun (translated ++ pending) piece := by
  rw [held.cutsRun_iff split returns]
  simp only [translate_eq_foldLines] at *
  rw [← foldLines_append_iff]
  refine ⟨fun same => ?_, fun ⟨before, cut⟩ => by rw [cut, before]⟩
  have cut : foldLines 2 (translated ++ text) = foldLines 2 translated ++ foldLines 2 text := by
    -- a line end that is cut makes the returned text too long
    refine foldLines_append_iff.mpr fun ⟨ends, starts⟩ => ?_
    have longer := (length_foldLines_append 2 translated text).2 ends starts
    rw [same, length_append] at longer
    omega
  exact ⟨append_cancel_right (cut.symm.trans same), cut⟩

theorem pendingLen_append_pair (front : CodePoints) (before last : Nat) :
    pendingLen (front ++ [before, last]) =
      ([last, before].takeWhile fun char => decide (char = cr)).length := by
  have lastTwo : (front ++ [before, last]).drop
      ((front ++ [before, last]).length - 2) = [before, last] := by
    simp
  unfold pendingLen
  rw [lastTwo]
  rfl

/-- The text in front of what is held back does not end in a carriage return,
unless two are held back. -/
theorem exists_held (text : CodePoints) :
    ∃ front kept, text = front ++ kept ∧ pendingLen text = kept.length ∧ Held front kept := by
  match text.reverse, reverse_reverse text with
  | [], same =>
    subst same
    exact ⟨[], [], rfl, rfl, Held.new⟩
  | [last], same =>
    subst same
    by_cases isCr : last = cr
    · subst isCr
      exact ⟨[], [cr], rfl, rfl, .inr (.inl rfl), fun _ => by simp⟩
    · refine ⟨[last], [], rfl, ?_, .inl rfl, fun _ => ?_⟩
      · simp [pendingLen, isCr]
      · simpa using isCr
  | last :: before :: front, same =>
    have isText : text = front.reverse ++ [before, last] := by
      rw [← same]
      simp
    subst isText
    rw [pendingLen_append_pair]
    by_cases isCr : last = cr
    · by_cases twice : before = cr
      · subst isCr
        subst twice
        exact ⟨front.reverse, [cr, cr], rfl, rfl, .inr (.inr rfl), fun fewer => absurd rfl fewer⟩
      · refine ⟨front.reverse ++ [before], [last], by simp, ?_,
          .inr (.inl (by rw [isCr])), fun _ => ?_⟩
        · simp [isCr, twice]
        · simpa using twice
    · refine ⟨front.reverse ++ [before, last], [], by simp, ?_, .inl rfl,
        fun _ => ?_⟩
      · simp [isCr]
      · simpa using isCr

/-- A piece is translated up to what is held back of it. -/
theorem Held.append {translated pending text kept : CodePoints}
    (held : Held translated pending) (next : Held text kept)
    (split : text ++ kept = pending ++ piece) : Held (translated ++ text) kept where
  atMostTwo := next.atMostTwo
  whole := by
    intro fewer
    cases text with
    | cons =>
      rw [getLast?_append_of_ne_nil _ (cons_ne_nil _ _)]
      exact next.whole fewer
    | nil =>
      rw [append_nil]
      refine held.whole fun both => ?_
      rw [both, nil_append] at split
      rcases next.atMostTwo with isKept | isKept | isKept
      · cases isKept.symm.trans split
      · cases isKept.symm.trans split
      · exact fewer isKept

/-! ## Chunks -/

variable {codec : IncrementalDecoder}

theorem TextNewlineDecoder.decode_piece {self : TextNewlineDecoder codec}
    {data : List UInt8} {decoder : codec.State}
    (decoded : codec.decode self.decoder data false = some (piece, decoder)) :
    ∃ front kept, self.pending ++ piece = front ++ kept ∧ Held front kept ∧
      self.decode data false = some (translate front, ⟨decoder, kept⟩) := by
  obtain ⟨front, kept, split, count, held⟩ := exists_held (self.pending ++ piece)
  refine ⟨front, kept, split, held, ?_⟩
  have cut : (self.pending ++ piece).length - pendingLen (self.pending ++ piece) =
      front.length := by
    rw [count, split, length_append, Nat.add_sub_cancel]
  unfold TextNewlineDecoder.decode
  simp only [decoded, cut]
  rw [split]
  simp

/-- The chunks are translated like one text if and only if no run is cut. -/
theorem decodeChunks_translate {decoder final : codec.State}
    (returned : CodePoints)
    {translated pending : CodePoints} {chunks : List (List UInt8)}
    {pieces : List CodePoints}
    (fed : codec.feed decoder chunks = some (pieces, final))
    (held : Held translated pending)
    (bounded : (translate translated).length ≤ returned.length) :
    ∃ texts kept more, TextNewlineDecoder.decodeChunks ⟨decoder, pending⟩ chunks =
          some (texts, ⟨final, kept⟩) ∧
        pending ++ pieces.flatten = more ++ kept ∧
        Held (translated ++ more) kept ∧
        (translate (translated ++ more)).length ≤ (returned ++ texts.flatten).length ∧
        (translate (translated ++ more) = returned ++ texts.flatten ↔
          translate translated = returned ∧ KeepsRuns (translated ++ pending) pieces) := by
  induction chunks generalizing decoder pending pieces translated returned with
  | nil =>
    cases fed
    exact ⟨[], pending, [], rfl, by simp, by simpa using held, by simpa using bounded,
      by simp [KeepsRuns]⟩
  | cons _ _ ih =>
    unfold IncrementalDecoder.feed at fed
    split at fed
    · cases fed
    next piece decoder' decoded =>
      obtain ⟨⟨later, s⟩, fedLater, same⟩ := Option.map_eq_some_iff.mp fed
      cases same
      have decoding := (⟨decoder, pending⟩ : TextNewlineDecoder codec).decode_piece decoded
      obtain ⟨front, kept, split, next, decodes⟩ := decoding
      have whole := held.translate_append_iff split.symm next.returns bounded
      have longer : (translate (translated ++ front)).length ≤
          (returned ++ translate front).length := by
        have parts := length_translate_append translated front
        rw [length_append]
        omega
      obtain ⟨texts, last, more, decodesLater, splitLater, heldLater, boundedLater, translates⟩ :=
        ih _ fedLater (held.append next split.symm) longer
      have before : translated ++ front ++ kept = translated ++ pending ++ piece := by
        rw [append_assoc, ← split, append_assoc]
      rw [before, whole, and_assoc] at translates
      refine ⟨translate front :: texts, last, front ++ more, ?_, ?_, ?_, ?_, ?_⟩
      · unfold TextNewlineDecoder.decodeChunks
        simp only [decodes, decodesLater, Option.map_some]
      · rw [flatten_cons, ← append_assoc, split, append_assoc,
          splitLater, append_assoc]
      · rwa [← append_assoc]
      · rwa [← append_assoc, flatten_cons, ← append_assoc]
      · rwa [← append_assoc, flatten_cons, ← append_assoc]

theorem flatten_feedData (texts : List CodePoints) (tail : CodePoints) :
    (feedData texts tail).flatten = texts.flatten ++ tail := by
  unfold feedData
  by_cases empty : tail = []
  · rw [if_pos empty, empty, append_nil, append_nil]
  · rw [if_neg empty]
    simp

/-- With a correct codec, what the decoder returns for the chunks and the final
flush is the translation of the whole text, if and only if the text is nowhere
cut between a run of three or more carriage returns and its line feed. -/
theorem decodeStream_translate (codec : Codec) {chunks : List (List UInt8)}
    {text : CodePoints} (decodes : codec.decodeAll chunks.flatten = some text) :
    ∃ pieces texts tail, codec.outputs chunks = some pieces ∧ pieces.flatten = text ∧
        TextNewlineDecoder.decodeStream codec.toIncrementalDecoder chunks =
          some (texts, tail) ∧
        (feedData texts tail).flatten = texts.flatten ++ tail ∧
        (texts.flatten ++ tail = translate text ↔ KeepsRuns [] pieces) := by
  obtain ⟨outputs, given, whole⟩ := codec.correct chunks text decodes
  refine ⟨outputs, ?_⟩
  have outputsGiven := given
  unfold IncrementalDecoder.outputs at given
  split at given
  · cases given
  next pieces s fed =>
    obtain ⟨⟨tail, last⟩, flushed, rfl⟩ := Option.map_eq_some_iff.mp given
    obtain ⟨texts, pending, more, decoded, split, held, bounded, translates⟩ :=
      decodeChunks_translate [] fed Held.new (Nat.le_refl _)
    rw [nil_append, nil_append] at *
    refine ⟨texts, translate (pending ++ tail), outputsGiven, whole, ?_,
      flatten_feedData _ _, ?_⟩
    · have decodedAll : (TextNewlineDecoder.new codec.toIncrementalDecoder).decodeChunks
          chunks = some (texts, ⟨s, pending⟩) := decoded
      unfold TextNewlineDecoder.decodeStream
      simp only [decodedAll, TextNewlineDecoder.decode, flushed, if_true, Option.map_some]
    · have last := held.translate_append_iff (append_nil (pending ++ tail)) nofun bounded
      have front : translate more = texts.flatten ↔ KeepsRuns [] pieces :=
        translates.trans (and_iff_right rfl)
      have isText : more ++ (pending ++ tail) = text := by
        rw [← whole, flatten_append, flatten_singleton, split, append_assoc]
      rw [isText, front, ← split] at last
      exact eq_comm.trans (last.trans keepsRuns_concat.symm)

/-! ## A codec with one byte for a character -/

def latinDecoder : IncrementalDecoder where
  State := Unit
  start := ()
  decode := fun _ data _ => some (data.map UInt8.toNat, ())

theorem latinDecoder_feed (chunks : List (List UInt8)) :
    latinDecoder.feed () chunks = some (chunks.map (List.map UInt8.toNat), ()) := by
  induction chunks with
  | nil => rfl
  | cons _ rest ih =>
    change (latinDecoder.feed () rest).map _ = _
    rw [ih]
    rfl

theorem latinDecoder_outputs (chunks : List (List UInt8)) :
    latinDecoder.outputs chunks = some (chunks.map (List.map UInt8.toNat) ++ [[]]) := by
  unfold IncrementalDecoder.outputs
  rw [show latinDecoder.feed latinDecoder.start chunks = _ from latinDecoder_feed chunks]
  rfl

def latin : Codec where
  toIncrementalDecoder := latinDecoder
  decodeAll := fun data => some (data.map UInt8.toNat)
  correct := by
    intro chunks text decodes
    cases decodes
    refine ⟨_, latinDecoder_outputs chunks, ?_⟩
    rw [List.flatten_append, List.flatten_singleton, List.append_nil, List.map_flatten]

theorem decodeStream_translate_of_cutRuns : ∃ texts tail,
      TextNewlineDecoder.decodeStream latinDecoder [[13, 13, 13], [13, 10, 13], [10]] =
          some (texts, tail) ∧
        texts.flatten ++ tail = translate [13, 13, 13, 13, 10, 13, 10] := by
  obtain ⟨pieces, texts, tail, given, _, decodes, _, exact⟩ :=
    decodeStream_translate latin
      (rfl : latin.decodeAll [[13, 13, 13], [13, 10, 13], [10]].flatten = some _)
  cases (latinDecoder_outputs _).symm.trans given
  exact ⟨texts, tail, decodes, exact.mpr (by decide)⟩

/-- Three carriage returns and a line feed are one line end, and two when the line
feed comes in a chunk of its own. -/
theorem decodeStream_cutBeforeLineFeed :
    latin.decodeAll [[13, 13, 13], [10]].flatten = some [13, 13, 13, 10] ∧
      translate [13, 13, 13, 10] = [10] ∧
      TextNewlineDecoder.decodeStream latinDecoder [[13, 13, 13, 10]] = some ([[10]], []) ∧
      TextNewlineDecoder.decodeStream latinDecoder [[13, 13, 13], [10]] =
        some ([[10], [10]], []) := by
  refine ⟨rfl, ?_, ?_, ?_⟩
  · decide
  · rfl
  · rfl

end Rsloop.Process
