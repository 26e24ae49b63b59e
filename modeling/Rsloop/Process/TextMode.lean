import Rsloop.Process.Lifecycle

/-!
# Text mode

With a text configuration every chunk of a pipe is decoded and translated by
itself. What the protocol gets is the translation of the whole output only when
no chunk ends inside a character or between `CR` and `LF`.
-/

namespace Rsloop.Process

open Transition PendingProcessEvent Rsloop.Text List

/-- `parse_process_text_config` always asks for translated line ends. -/
def parsedTextConfig (decode : List UInt8 → Option CodePoints) : ProcessTextConfig where
  decode := decode
  translateNewlines := true

/-- The decoding of a whole stream with each `CR LF`, then each `CR`, replaced -/
def translateNewlines (text : CodePoints) : CodePoints :=
  replace [cr] [lf] (replace [cr, lf] [lf] text)

def payloadText (textConfig : Option ProcessTextConfig) (data : List UInt8) : Option CodePoints :=
  match payload textConfig data with
  | some (.text text) => some text
  | _ => none

/-- The strings that `pipe_data_received` has got for a pipe -/
def ProcessTransportCore.received (core : ProcessTransportCore) (fd : Nat) : List CodePoints :=
  (core.delivered.filterMap (dataOf fd)).filterMap (payloadText core.textConfig)

/-- Every chunk decodes to what it adds to the decoding of the rest, and no `CR`
is cut off from its `LF`. -/
def CleanCuts (decode : List UInt8 → Option CodePoints) : List (List UInt8) → Prop
  | [] => decode [] = some []
  | chunk :: rest =>
    ∃ piece later, decode chunk = some piece ∧ decode rest.flatten = some later ∧
      decode (chunk ++ rest.flatten) = some (piece ++ later) ∧
      (piece.getLast? = some cr → startsLine 0 later = false) ∧
      CleanCuts decode rest

/-! ## Chunks that are cut cleanly -/

variable {decode : List UInt8 → Option CodePoints}

theorem payloadText_parsedTextConfig {data : List UInt8} {piece : CodePoints}
    (decodes : decode data = some piece) :
    payloadText (some (parsedTextConfig decode)) data = some (translateNewlines piece) := by
  have given : payload (some (parsedTextConfig decode)) data =
      some (.text (translateNewlines piece)) := by
    simp [payload, parsedTextConfig, decodes, translateNewlines]
  unfold payloadText
  rw [given]

theorem CleanCuts.isSome_payload {chunks : List (List UInt8)}
    (clean : CleanCuts decode chunks) :
    ∀ data ∈ chunks, (payload (some (parsedTextConfig decode)) data).isSome := by
  induction chunks with
  | nil => exact nofun
  | cons _ _ ih =>
    obtain ⟨piece, later, decodes, _, _, _, cleanRest⟩ := clean
    intro data mem
    rcases mem_cons.mp mem with isFirst | isLater
    · subst isFirst
      simp [payload, parsedTextConfig, decodes]
    · exact ih cleanRest data isLater

/-- Translated apart, two pieces come to the translation of both exactly if no
`CR LF` is cut. -/
theorem translateNewlines_append_iff (piece later : CodePoints) :
    translateNewlines (piece ++ later) = translateNewlines piece ++ translateNewlines later ↔
      ¬ (piece.getLast? = some cr ∧ startsLine 0 later) := by
  unfold translateNewlines
  simp only [replace_cr_replace_crlf]
  exact foldLines_append_iff

/-- A cut between `CR` and `LF` adds a line feed. -/
theorem translateNewlines_cut (before after : CodePoints) :
    translateNewlines (before ++ [cr]) ++ translateNewlines (lf :: after) =
        translateNewlines before ++ lf :: lf :: translateNewlines after ∧
      translateNewlines (before ++ cr :: lf :: after) =
        translateNewlines before ++ lf :: translateNewlines after := by
  have ending := (translateNewlines_append_iff before [cr]).mpr (by simp [startsLine, cr, lf])
  have whole := (translateNewlines_append_iff before (cr :: lf :: after)).mpr
    (by simp [startsLine, cr, lf])
  rw [ending, whole]
  unfold translateNewlines
  simp only [replace_cr_replace_crlf]
  simp [foldLines, startsLine, cr, lf]

section

variable {first second : List (List UInt8)} (clean : CleanCuts decode (first ++ second))

include clean

theorem CleanCuts.suffix : CleanCuts decode second := by
  induction first with
  | nil => exact clean
  | cons _ _ ih =>
    obtain ⟨_, _, _, _, _, _, cleanRest⟩ := clean
    exact ih cleanRest

/-- The strings for the first chunks are the front of the whole translation. -/
theorem CleanCuts.translate :
    ∃ text rest, decode (first ++ second).flatten = some text ∧
      decode second.flatten = some rest ∧
      (first.filterMap (payloadText (some (parsedTextConfig decode)))).flatten ++
          translateNewlines rest = translateNewlines text := by
  induction first with
  | nil =>
    cases second with
    | nil => exact ⟨[], [], clean, clean, rfl⟩
    | cons =>
      obtain ⟨piece, later, _, _, decodes, _⟩ := clean
      exact ⟨_, _, decodes, decodes, rfl⟩
  | cons _ _ ih =>
    obtain ⟨piece, later, decodes, decodesRest, decodesAll, whole, cleanRest⟩ := clean
    obtain ⟨text, rest, decodesText, decodesSecond, translates⟩ := ih cleanRest
    have same : later = text := Option.some.inj (decodesRest.symm.trans decodesText)
    subst same
    refine ⟨piece ++ later, rest, decodesAll, decodesSecond, ?_⟩
    have split := (translateNewlines_append_iff piece later).mpr fun ⟨ends, starts⟩ =>
      absurd starts (by simp [whole ends])
    rw [filterMap_cons_some (payloadText_parsedTextConfig decodes),
      flatten_cons, append_assoc, translates, split]

end

/-! ## The whole output -/

/-- In every run in text mode, if the chunks of a pipe are cut cleanly, then they
all decode, what the protocol has got is the front of the translated output of the
pipe, and all of it when all chunks have reached it. -/
theorem received_translate_of_cleanCuts (pipes : ProcessPipes)
    (decode : List UInt8 → Option CodePoints) {actions : List ProcessAction}
    {core : ProcessTransportCore} {fd : Nat}
    (reached : run processStep
      (spawnProcessTransport pipes (some (parsedTextConfig decode))) actions = some core)
    (clean : CleanCuts decode (core.chunks fd)) :
    ∃ text, decode (core.chunks fd).flatten = some text ∧
      (∀ data ∈ core.chunks fd, (payload core.textConfig data).isSome) ∧
      (core.received fd).flatten <+: translateNewlines text ∧
      (core.delivered.filterMap (dataOf fd) = core.chunks fd →
        (core.received fd).flatten = translateNewlines text) := by
  have always : Guarded processStep (fun _ _ => True)
      (spawnProcessTransport pipes (some (parsedTextConfig decode))) actions :=
    guarded_of_forall fun _ _ _ => trivial
  have inOrder : DataInOrder (some (parsedTextConfig decode)) core :=
    invariant_of_run (DataInOrder (some (parsedTextConfig decode)))
      (fun _ _ _ inOrder _ moved => inOrder.step (processMove_processStep moved))
      (DataInOrder.spawn pipes _) always reached
  obtain ⟨later, split⟩ := inOrder.sent fd
  have cut : CleanCuts decode (core.delivered.filterMap (dataOf fd) ++ later) := by
    rwa [split]
  obtain ⟨text, rest, decodes, decodesRest, translates⟩ := cut.translate
  rw [split] at decodes
  unfold ProcessTransportCore.received
  rw [inOrder.config]
  refine ⟨text, decodes, clean.isSome_payload, ⟨_, translates⟩, ?_⟩
  intro everything
  have nothing : later = [] := by
    rw [everything] at split
    exact append_cancel_left (split.trans (append_nil _).symm)
  subst nothing
  have isNil : [] = rest := Option.some.inj (cut.suffix.symm.trans decodesRest)
  subst isNil
  rw [← translates]
  exact (append_nil _).symm

/-! ## An encoding with characters of two bytes -/

/-- The part of UTF-8 with one and two bytes for a character -/
def decodeTwoByte : List UInt8 → Option CodePoints
  | [] => some []
  | [byte] => if byte < 128 then some [byte.toNat] else none
  | first :: second :: rest =>
    if first < 128 then
      (decodeTwoByte (second :: rest)).map fun text => first.toNat :: text
    else if 194 ≤ first ∧ first < 224 ∧ 128 ≤ second ∧ second < 192 then
      (decodeTwoByte rest).map fun text =>
        ((first.toNat - 192) * 64 + (second.toNat - 128)) :: text
    else
      none

def readAndDeliver (chunks : List (List UInt8)) : List ProcessAction :=
  chunks.flatMap (fun data => [.read 1 data, .announceData 1]) ++
    [.startDrain, .take] ++ chunks.map fun _ => .deliver false

/-- Two chunks that are cut behind a character and a line end -/
theorem received_translate_of_twoLines : ∃ core text, run processStep
          (spawnProcessTransport ⟨false, true, false⟩ (some (parsedTextConfig decodeTwoByte)))
          (readAndDeliver [[195, 169, 13, 10], [13, 97]]) = some core ∧
        decodeTwoByte (core.chunks 1).flatten = some text ∧
        (core.received 1).flatten = translateNewlines text ∧
        translateNewlines text = [233, 10, 10, 97] := by
  obtain ⟨core, reached, chunks, delivered⟩ :=
    exists_run_of_any processStep
      (spawnProcessTransport ⟨false, true, false⟩ (some (parsedTextConfig decodeTwoByte)))
      (readAndDeliver [[195, 169, 13, 10], [13, 97]])
      (fun core => core.chunks 1 = [[195, 169, 13, 10], [13, 97]] ∧
        core.delivered.filterMap (dataOf 1) = [[195, 169, 13, 10], [13, 97]])
      (by decide)
  have clean : CleanCuts decodeTwoByte (core.chunks 1) := by
    rw [chunks]
    exact ⟨[233, 13, 10], [13, 97], rfl, rfl, rfl, by decide,
      [13, 97], [], rfl, rfl, rfl, by decide, rfl⟩
  obtain ⟨text, decodes, _, _, whole⟩ :=
    received_translate_of_cleanCuts ⟨false, true, false⟩ decodeTwoByte reached clean
  have isText : text = [233, 13, 10, 13, 97] := by
    rw [chunks] at decodes
    exact (Option.some.inj decodes).symm
  refine ⟨core, text, reached, decodes, whole (delivered.trans chunks.symm), ?_⟩
  rw [isText]
  decide

/-- A chunk that ends inside a character does not decode, which ends the connection;
a cut between `CR` and `LF` gives one line end more. -/
theorem received_cutInside : (∃ core, run processStep (spawnProcessTransport ⟨false, true, false⟩
            (some (parsedTextConfig decodeTwoByte)))
          (readAndDeliver [[195], [169]] |>.dropLast) = some core ∧
        decodeTwoByte (core.chunks 1).flatten = some [233] ∧
        core.received 1 = [] ∧
        core.delivered = [connectionLost none]) ∧
    ∃ core, run processStep (spawnProcessTransport ⟨false, true, false⟩
            (some (parsedTextConfig decodeTwoByte)))
          (readAndDeliver [[97, 13], [10, 98]]) = some core ∧
        decodeTwoByte (core.chunks 1).flatten = some [97, 13, 10, 98] ∧
        translateNewlines [97, 13, 10, 98] = [97, 10, 98] ∧
        (core.received 1).flatten = [97, 10, 10, 98] := by
  constructor
  · exact exists_run_of_any processStep
      (spawnProcessTransport ⟨false, true, false⟩ (some (parsedTextConfig decodeTwoByte)))
      (readAndDeliver [[195], [169]] |>.dropLast)
      (fun core => decodeTwoByte (core.chunks 1).flatten = some [233] ∧
        core.received 1 = [] ∧ core.delivered = [connectionLost none]) (by decide)
  · exact exists_run_of_any processStep
      (spawnProcessTransport ⟨false, true, false⟩ (some (parsedTextConfig decodeTwoByte)))
      (readAndDeliver [[97, 13], [10, 98]])
      (fun core => decodeTwoByte (core.chunks 1).flatten = some [97, 13, 10, 98] ∧
        translateNewlines [97, 13, 10, 98] = [97, 10, 98] ∧
        (core.received 1).flatten = [97, 10, 10, 98]) (by decide)

end Rsloop.Process
