import Flannel.Kube.Watch

/-!
# The watch stream and its chunks

What a stream of watch frames means is a matter of its lines: every line that is not empty is
read, in order, up to the first that fails (`lineByLine`).  The decoder always ends with the
same error as that, and what it yields is always a beginning of the same events
(`decodeChunks_spec`).  But a line that fails takes down the lines before it that became
complete with the same chunk: they were decoded already, and their events are dropped with the
batch.  How many events are lost depends on where the chunks end.

So the chunks make no difference exactly if there is nothing to lose: no complete line fails,
or the first line that is not empty does.
-/

namespace Flannel

namespace Watch

open Framing

section Lines

variable {Value Node : Type} (json : Json Value Node)

/-- What becomes of the complete lines that are not empty. -/
def lineResults (lines : List (List UInt8)) : List (Except KubeError (WatchEvent Node)) :=
  ((lines.map dropReturn).filter fun line => line ≠ []).map (decodeLine json)

/-- What becomes of the bytes after the last line feed. -/
def endResult (rest : List UInt8) : List (Except KubeError (WatchEvent Node)) :=
  if takeTrailing rest = "" then [] else [parseWatchLine json (takeTrailing rest)]

/-- The meaning of a byte sequence: its lines are read one after the other, up to the first
that fails. -/
def lineByLine (bytes : List UInt8) : Decoded Node :=
  untilError (lineResults json (completeLines 10 bytes).1 ++
    endResult json (completeLines 10 bytes).2)

theorem lineResults_append (lines lines' : List (List UInt8)) :
    lineResults json (lines ++ lines') = lineResults json lines ++ lineResults json lines' := by
  simp only [lineResults, List.map_append, List.filter_append]

/-! ## The parts of the decoder -/

/-- A batch of lines: all or nothing. -/
theorem decodeLoop_eq (lines : List (List UInt8)) :
    decodeLoop json lines = allOrError (lineResults json lines) := by
  induction lines with
  | nil => rfl
  | cons line lines ih =>
    rw [decodeLoop]
    by_cases hempty : dropReturn line = []
    · have hskip : lineResults json (line :: lines) = lineResults json lines := by
        simp [lineResults, hempty]
      rw [if_pos hempty, ih, hskip]
    · have hcons : lineResults json (line :: lines) =
          decodeLine json (dropReturn line) :: lineResults json lines := by
        simp [lineResults, hempty]
      rw [if_neg hempty, hcons, ih]
      cases decodeLine json (dropReturn line) with
      | error e => rfl
      | ok event => rfl

theorem decodeLines_eq (buf : List UInt8) :
    decodeLines json buf =
      (allOrError (lineResults json (completeLines 10 buf).1)).map
        fun events => (events, (completeLines 10 buf).2) := by
  have hloop : decodeLines json buf = (do
      let events ← decodeLoop json (completeLines 10 buf).1
      return (events, (completeLines 10 buf).2)) := rfl
  rw [hloop, decodeLoop_eq]
  cases allOrError (lineResults json (completeLines 10 buf).1) with
  | error e => rfl
  | ok events => rfl

theorem decodeEnd_eq (buf : List UInt8) : decodeEnd json buf = untilError (endResult json buf) := by
  rw [decodeEnd, endResult]
  by_cases hline : takeTrailing buf = ""
  · simp [hline, untilError]
  · have hbuf : buf ≠ [] := by
      rintro rfl
      exact hline rfl
    rw [if_neg hbuf, if_neg hline, if_neg hline]
    cases parseWatchLine json (takeTrailing buf) with
    | error e => rfl
    | ok event => rfl

/-! ## The whole stream -/

/-- The decoder on a chunk, by the lines that the chunk completes. -/
theorem decodeChunks_cons (buf chunk : List UInt8) (chunks : List (Except String (List UInt8))) :
    decodeChunks json buf (.ok chunk :: chunks) =
      match untilError (lineResults json (completeLines 10 (buf ++ chunk)).1) with
      | (events, none) =>
        (events ++ (decodeChunks json (completeLines 10 (buf ++ chunk)).2 chunks).1,
          (decodeChunks json (completeLines 10 (buf ++ chunk)).2 chunks).2)
      | (_, some e) => ([], some e) := by
  rw [decodeChunks, decodeLines_eq, allOrError_eq]
  generalize untilError (lineResults json (completeLines 10 (buf ++ chunk)).1) = read
  obtain ⟨events, outcome⟩ := read
  cases outcome with
  | none => rfl
  | some e => rfl

/-- The meaning of the bytes, by the lines that are complete after some of them. -/
theorem lineByLine_append (bs cs : List UInt8) :
    lineByLine json (bs ++ cs) =
      match untilError (lineResults json (completeLines 10 bs).1) with
      | (events, none) =>
        (events ++ (lineByLine json ((completeLines 10 bs).2 ++ cs)).1,
          (lineByLine json ((completeLines 10 bs).2 ++ cs)).2)
      | (events, some e) => (events, some e) := by
  rw [lineByLine, completeLines_append, lineResults_append, List.append_assoc, untilError_append]
  generalize untilError (lineResults json (completeLines 10 bs).1) = read
  obtain ⟨events, outcome⟩ := read
  cases outcome with
  | none => rfl
  | some e => rfl

/-- **What the chunks can change.**  The stream ends as it should, it yields a beginning of
the events, and all of them if no complete line fails. -/
theorem decodeChunks_spec {buf : List UInt8} (hbuf : completeLines 10 buf = ([], buf))
    (chunks : List (List UInt8)) :
    (decodeChunks json buf (chunks.map .ok)).2 = (lineByLine json (buf ++ chunks.flatten)).2 ∧
      (decodeChunks json buf (chunks.map .ok)).1 <+:
        (lineByLine json (buf ++ chunks.flatten)).1 ∧
      ((untilError (lineResults json (completeLines 10 (buf ++ chunks.flatten)).1)).2 = none →
        (decodeChunks json buf (chunks.map .ok)).1 =
          (lineByLine json (buf ++ chunks.flatten)).1) := by
  induction chunks generalizing buf with
  | nil =>
    have hend : lineByLine json (buf ++ ([] : List (List UInt8)).flatten) = decodeEnd json buf := by
      rw [List.flatten_nil, List.append_nil, lineByLine, hbuf, decodeEnd_eq]
      rfl
    rw [hend]
    exact ⟨rfl, List.prefix_rfl, fun _ => rfl⟩
  | cons chunk chunks ih =>
    have hih := ih (completeLines_rest 10 (buf ++ chunk))
    rw [List.flatten_cons, ← List.append_assoc, lineByLine_append, List.map_cons,
      decodeChunks_cons, completeLines_append 10 (buf ++ chunk), lineResults_append,
      untilError_append]
    generalize untilError (lineResults json (completeLines 10 (buf ++ chunk)).1) = read
    obtain ⟨events, outcome⟩ := read
    cases outcome with
    | none =>
      refine ⟨hih.1, (List.prefix_append_right_inj events).mpr hih.2.1, fun hnone => ?_⟩
      exact congrArg (events ++ ·) (hih.2.2 hnone)
    | some e =>
      refine ⟨rfl, List.nil_prefix, fun hnone => ?_⟩
      cases hnone

/-- However the bytes are split into chunks, the stream is the same, and it is that of the
lines. -/
def FramingIndependent (bytes : List UInt8) : Prop :=
  (∀ chunks chunks' : List (List UInt8), chunks.flatten = bytes → chunks'.flatten = bytes →
    decodeWatchStream json (chunks.map .ok) = decodeWatchStream json (chunks'.map .ok)) ∧
  ∀ chunks : List (List UInt8), chunks.flatten = bytes →
    decodeWatchStream json (chunks.map .ok) = lineByLine json bytes

/-- All bytes in one chunk: a complete line that fails is all that is left. -/
theorem decodeWatchStream_one {bytes : List UInt8}
    (h : (untilError (lineResults json (completeLines 10 bytes).1)).2 ≠ none) :
    (decodeWatchStream json [.ok bytes]).1 = [] := by
  rw [decodeWatchStream, decodeChunks_cons, List.nil_append]
  generalize untilError (lineResults json (completeLines 10 bytes).1) = read at h
  obtain ⟨events, outcome⟩ := read
  cases outcome with
  | none => exact absurd rfl h
  | some e => rfl

/-- A complete line that fails is where the events end. -/
theorem lineByLine_of_fails {bytes : List UInt8}
    (h : (untilError (lineResults json (completeLines 10 bytes).1)).2 ≠ none) :
    (lineByLine json bytes).1 = (untilError (lineResults json (completeLines 10 bytes).1)).1 := by
  rw [lineByLine, untilError_append]
  generalize untilError (lineResults json (completeLines 10 bytes).1) = read at h ⊢
  obtain ⟨events, outcome⟩ := read
  cases outcome with
  | none => exact absurd rfl h
  | some e => rfl

/-- **Where the chunks end makes no difference if and only if there is nothing to lose**: no
complete line fails, or the first one that is not empty does. -/
theorem watch_stream_framing_iff (bytes : List UInt8) :
    FramingIndependent json bytes ↔
      FailsFirst (lineResults json (completeLines 10 bytes).1) := by
  rw [failsFirst_iff]
  constructor
  · rintro ⟨-, hlines⟩
    refine or_iff_not_imp_left.mpr fun hfails => ?_
    -- all bytes in one chunk: the events before the failure are lost, so there were none
    have hone : decodeWatchStream json [.ok bytes] = lineByLine json bytes :=
      hlines [bytes] List.flatten_singleton
    rw [← lineByLine_of_fails json hfails, ← hone]
    exact decodeWatchStream_one json hfails
  · intro h
    have hall : ∀ chunks : List (List UInt8), chunks.flatten = bytes →
        decodeWatchStream json (chunks.map .ok) = lineByLine json bytes := by
      rintro chunks rfl
      have hbuf : completeLines 10 ([] : List UInt8) = ([], []) := rfl
      obtain ⟨houtcome, hbegin, hevents⟩ := decodeChunks_spec json hbuf chunks
      refine Prod.ext ?_ houtcome
      by_cases hnone :
          (untilError (lineResults json (completeLines 10 chunks.flatten).1)).2 = none
      · exact hevents hnone
      · have hnil : (lineByLine json chunks.flatten).1 = [] := by
          rw [lineByLine_of_fails json hnone]
          exact h.resolve_left hnone
        rw [hnil]
        rw [List.nil_append, hnil] at hbegin
        exact List.prefix_nil.mp hbegin
    refine ⟨fun chunks chunks' hchunks hchunks' => ?_, hall⟩
    rw [hall chunks hchunks, hall chunks' hchunks']

end Lines

/-! ## A frame and a line that is none -/

/-- The bytes of a text in ASCII. -/
def asciiBytes (s : String) : List UInt8 := s.toList.map fun c => c.toNat.toUInt8

/-- The JSON library on one frame, whose object has no fields, and on lines that are no JSON.
Its values are their texts. -/
def oneFrameJson : Json String Node where
  frame line :=
    if line = "\x7b\"type\":\"ADDED\",\"object\":\x7b\x7d\x7d" then .ok (.added, "\x7b\x7d")
    else .error "expected value at line 1 column 1"
  status _ := .ok {}
  node _ := .ok ⟨⟨"", fun _ => none⟩, {}⟩
  quote line := "\"" ++ line ++ "\""

/-- A frame. -/
def goodLine : List UInt8 :=
  asciiBytes "\x7b\"type\":\"ADDED\",\"object\":\x7b\x7d\x7d\n"

/-- A line that is none. -/
def badLine : List UInt8 := asciiBytes "x\n"

/-- In one chunk with the line that fails, the event of the frame is lost. -/
theorem event_lost_with_bad_line :
    (decodeWatchStream oneFrameJson [.ok (goodLine ++ badLine)]).1 = [] ∧
      (decodeWatchStream oneFrameJson [.ok goodLine, .ok badLine]).1 =
        [⟨.added, ⟨⟨"", fun _ => none⟩, {}⟩⟩] ∧
      ¬ FramingIndependent oneFrameJson (goodLine ++ badLine) := by
  have hone : (decodeWatchStream oneFrameJson [.ok (goodLine ++ badLine)]).1 = [] := by
    rfl
  have htwo : (decodeWatchStream oneFrameJson [.ok goodLine, .ok badLine]).1 =
      [⟨.added, ⟨⟨"", fun _ => none⟩, {}⟩⟩] := by
    rfl
  refine ⟨hone, htwo, fun h => ?_⟩
  have hsame := h.1 [goodLine ++ badLine] [goodLine, badLine] (by simp) (by simp)
  have hevents := congrArg Prod.fst hsame
  rw [List.map_singleton, hone, List.map_cons, List.map_singleton, htwo] at hevents
  cases hevents

end Watch

end Flannel
