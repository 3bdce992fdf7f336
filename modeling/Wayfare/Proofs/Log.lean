import Mathlib.Tactic.SplitIfs
import Wayfare.Log
import Wayfare.Proofs.Success
import Wayfare.Proofs.Value.Lines

/-! # Reading back an event log

Whatever is reported and closed in whatever order, a file holds the lines of the
events of its sessions, the oldest first. As long as their texts have no
character that ends a line without being escaped, every line reads back as its
event, and each session gets its own events and no others.
-/

namespace Wayfare

open Wayfare.Text Wayfare.Value

/-- A call on an event log: to report something of a kind for a session, or to close the file of a
session or all files. -/
inductive LogCall where
  | log (session kind : String) (payload : Value)
  | close (session : Option String)

namespace LogCall

/-- The event that a call adds to a file of a given name. No call adds to a file whose name is too
long. -/
def eventIn? (name : String) : LogCall → Option Event
  | log session kind payload =>
      if Log.fileName session = name ∧ name.length ≤ Log.longestName then
        some ⟨session, .text kind, payload⟩
      else none
  | close _ => none

/-- The event that a call reports for a session, of one kind if one is given. -/
def eventFor? (session : String) (kind : Option String) : LogCall → Option Event
  | log s k payload =>
      if s = session ∧ (kind = none ∨ kind = some k) then some ⟨s, .text k, payload⟩ else none
  | close _ => none

end LogCall

/-! ## Events read back -/

namespace Event

theorem ofValue?_toValue (e : Event) : ofValue? e.toValue = some e := by
  simp [ofValue?, toValue, Fields.field, List.lookup]

/-- What an event is written as has no bare line ends if its parts have none. -/
theorem isJson_toValue {e : Event} (hsession : IsOneLine e.session)
    (hkind : e.kind.IsJson IsOneLine) (hpayload : e.payload.IsJson IsOneLine) :
    e.toValue.IsJson IsOneLine := by
  refine .record (by simp) ?_ ?_
  · simp [IsOneLine, bareLineEnds]
  · simpa using ⟨.text hsession, hkind, hpayload⟩

theorem toList_line (e : Event) : e.line.toList = e.toValue.json ++ ['\n'] :=
  String.toList_ofList

theorem not_isBlank_json (e : Event) : isBlank (String.ofList e.toValue.json) = false := by
  rw [isBlank, String.toList_ofList]
  rfl

end Event

namespace Log

theorem readLine_json {e : Event} {legible : String → Prop} (h : e.toValue.IsJson legible) :
    readLine (String.ofList e.toValue.json) = .ok e := by
  have hvalue : ofJson? (String.ofList e.toValue.json) = some e.toValue := ofJson?_toJson h
  rw [readLine, hvalue, Option.bind_some, Event.ofValue?_toValue]
  rfl

/-- The lines of events without bare line ends read back as these events. -/
theorem mapM_readLine {text : String} {events : List Event}
    (htext : text.toList = events.flatMap fun e => e.line.toList)
    (h : ∀ e ∈ events, e.toValue.IsJson IsOneLine) :
    ((lines text).filter fun l => !isBlank l).mapM readLine = .ok events := by
  have hlines : lines text = events.map fun e => String.ofList e.toValue.json := by
    have hsplit : text.toList = (events.map fun e => e.toValue.json).flatMap (· ++ ['\n']) := by
      simp only [htext, List.flatMap_map, Event.toList_line]
    have honeLine : ∀ cs ∈ events.map fun e => e.toValue.json, OnOneLine cs :=
      List.forall_mem_map.mpr fun e he => (h e he).onOneLine
    rw [lines, hsplit, linesFrom_flatMap honeLine, List.map_map]
    rfl
  have hkept : ((events.map fun e => String.ofList e.toValue.json).filter fun l => !isBlank l) =
      events.map fun e => String.ofList e.toValue.json := by
    refine List.filter_eq_self.mpr (List.forall_mem_map.mpr fun e _ => ?_)
    rw [e.not_isBlank_json]
    rfl
  rw [hlines, hkept, Result.mapM_eq_ok, List.forall₂_map_left_iff, List.forall₂_same]
  exact fun e he => readLine_json (h e he)

/-! ## Calls -/

theorem append_of_le {e : Event} (h : (fileName e.session).length ≤ longestName) (log : Log) :
    log.append e =
      .ok ((log.openFile (fileName e.session)).extend (fileName e.session) e.line) := by
  rw [append, usableName, if_pos h]
  rfl

theorem read_of_le {session : String} (h : (fileName session).length ≤ longestName) (log : Log)
    (kind : Value) : log.read (.text session) kind =
      (fun events => events.filter fun e => e.session == session && (kind.isNull || kind == e.kind)) <$>
        ((lines (log.textOf (fileName session))).filter fun l => !isBlank l).mapM readLine := by
  rw [read, readSession, Result.ok_bind, usableName, if_pos h, Result.ok_bind]
  rfl

/-- An event of a session that can have no file is refused, and the session cannot be read. -/
theorem append_of_lt {e : Event} (h : longestName < (fileName e.session).length) (log : Log) :
    log.append e = .error .nameTooLong ∧
      ∀ kind, log.read (.text e.session) kind = .error .nameTooLong := by
  have hname : usableName e.session = .error .nameTooLong := if_neg (Nat.not_le_of_lt h)
  refine ⟨?_, fun kind => ?_⟩
  · rw [append, hname, Result.error_bind]
  · rw [read, readSession, Result.ok_bind, hname, Result.error_bind]

/-- The log after a call. A call that is refused changes nothing. -/
def step (log : Log) : LogCall → Log
  | .log session kind payload =>
      match log.append ⟨session, .text kind, payload⟩ with
      | .ok after => after
      | .error _ => log
  | .close session => log.close session

def run (log : Log) (calls : List LogCall) : Log :=
  calls.foldl step log

/-- A call adds the line of its event to the file of its session and changes no other file. -/
theorem textOf_step (log : Log) (call : LogCall) (name : String) :
    (log.step call).textOf name =
      log.textOf name ++ ((call.eventIn? name).map Event.line).getD "" := by
  cases call with
  | close session => rw [step, textOf_close, LogCall.eventIn?, Option.map_none, Option.getD_none,
      String.append_empty]
  | log session kind payload =>
      obtain hlt | hle := Nat.lt_or_ge longestName (fileName session).length
      · rw [step, (append_of_lt (e := ⟨session, .text kind, payload⟩) hlt log).1]
        have hnone : ¬(fileName session = name ∧ name.length ≤ longestName) := by
          rintro ⟨rfl, h⟩
          exact absurd h (Nat.not_le_of_lt hlt)
        simp [LogCall.eventIn?, hnone]
      · rw [step, append_of_le (e := ⟨session, .text kind, payload⟩) hle]
        by_cases hown : fileName session = name
        · subst hown
          simp [LogCall.eventIn?, hle]
        · rw [textOf_extend_of_ne (Ne.symm hown)]
          simp [LogCall.eventIn?, hown]

/-- No file is opened twice. -/
theorem nodup_opened_step {log : Log} (h : log.opened.Nodup) (call : LogCall) :
    (log.step call).opened.Nodup := by
  cases call with
  | close session =>
      cases session with
      | none => exact List.nodup_nil
      | some session => exact h.filter _
  | log session kind payload =>
      obtain hlt | hle := Nat.lt_or_ge longestName (fileName session).length
      · rw [step, (append_of_lt (e := ⟨session, .text kind, payload⟩) hlt log).1]
        exact h
      · rw [step, append_of_le (e := ⟨session, .text kind, payload⟩) hle]
        change (log.openFile (fileName session)).opened.Nodup
        unfold openFile
        split
        next => exact h
        next hclosed =>
          have hfresh : fileName session ∉ log.opened := by simpa using hclosed
          refine List.nodup_append.mpr ⟨h, List.nodup_singleton _, ?_⟩
          rintro name hname _ hown rfl
          exact hfresh (List.mem_singleton.mp hown ▸ hname)

theorem nodup_opened_run {log : Log} (h : log.opened.Nodup) (calls : List LogCall) :
    (log.run calls).opened.Nodup := by
  induction calls generalizing log with
  | nil => exact h
  | cons call calls ih => exact ih (nodup_opened_step h call)

/-- After a run a file holds what it held before, and then the lines of its events in order. -/
theorem textOf_run (log : Log) (calls : List LogCall) (name : String) :
    ((log.run calls).textOf name).toList =
      (log.textOf name).toList ++
        (calls.filterMap (·.eventIn? name)).flatMap fun e => e.line.toList := by
  induction calls generalizing log with
  | nil => simp [run]
  | cons call calls ih =>
      have hstep := textOf_step log call name
      rw [run, List.foldl_cons, ← run, ih, hstep, List.filterMap_cons]
      cases call.eventIn? name <;> simp

theorem filter_eventIn? {session : String} (h : (fileName session).length ≤ longestName)
    (kind : Option String) (call : LogCall) :
    (call.eventIn? (fileName session)).filter
        (fun e => e.session == session && ((ofText? kind).isNull || ofText? kind == e.kind)) =
      call.eventFor? session kind := by
  cases call with
  | close _ => rfl
  | log s k payload =>
      by_cases hs : s = session
      · subst hs
        have hkind : ((ofText? kind).isNull || ofText? kind == .text k) =
            decide (kind = none ∨ kind = some k) := by
          cases kind with
          | none => simp [ofText?, ofOption, isNull]
          | some wanted =>
              change (false || wanted == k) = _
              simp only [Bool.false_or, reduceCtorEq, false_or, Option.some.injEq]
              rfl
        simp [LogCall.eventIn?, LogCall.eventFor?, h, hkind, Option.filter]
      · simp only [LogCall.eventIn?, LogCall.eventFor?, Option.filter, hs, false_and, if_false]
        split_ifs <;> simp [hs]

theorem exists_log_of_eventIn? {call : LogCall} {name : String} {e : Event}
    (h : call.eventIn? name = some e) : ∃ s k payload, call = .log s k payload ∧
      fileName s = name ∧ e = ⟨s, .text k, payload⟩ := by
  cases call with
  | close _ => exact nomatch h
  | log s k payload =>
      rw [LogCall.eventIn?] at h
      split_ifs at h with hname
      exact ⟨s, k, payload, rfl, hname.1, (Option.some.inj h).symm⟩

/-- Reading a session after any calls gives the events that were reported for it, the oldest first, and
reading it with a kind those of this kind. The session has to be able to have a file, and the texts in
its file must not have bare line ends. -/
theorem read_run (calls : List LogCall) (session : String) (kind : Option String)
    (hname : (fileName session).length ≤ longestName)
    (hlegible : ∀ s k payload, .log s k payload ∈ calls → fileName s = fileName session →
      IsOneLine s ∧ IsOneLine k ∧ payload.IsJson IsOneLine) :
    (run {} calls).read (.text session) (.ofText? kind) =
      .ok (calls.filterMap (·.eventFor? session kind)) := by
  have htext : ((run {} calls).textOf (fileName session)).toList =
      (calls.filterMap (·.eventIn? (fileName session))).flatMap fun e => e.line.toList := by
    rw [textOf_run]
    rfl
  have hevents : ∀ e ∈ calls.filterMap (·.eventIn? (fileName session)),
      e.toValue.IsJson IsOneLine := by
    intro e he
    obtain ⟨call, hcall, he⟩ := List.mem_filterMap.mp he
    obtain ⟨s, k, payload, rfl, hfile, rfl⟩ := exists_log_of_eventIn? he
    obtain ⟨hs, hk, hpayload⟩ := hlegible s k payload hcall hfile
    exact Event.isJson_toValue hs (.text hk) hpayload
  rw [read_of_le hname, mapM_readLine htext hevents]
  change Except.ok (List.filter _ _) = _
  rw [List.filter_filterMap]
  exact congrArg _ (congrArg (calls.filterMap ·) (funext (filter_eventIn? hname kind)))

/-- Two sessions that share a file, which is closed in between, are read apart. -/
theorem read_run_shared_file :
    let report (n : Nat) : Value := .record [("n", .int n), ("text", .text "a\nb")]
    let calls : List LogCall :=
      [.log "a/b" "STAGE1_COMPLETE" (report 1), .log "a_b" "STAGE1_COMPLETE" (report 2),
        .close (some "a/b"), .log "a/b" "STAGE2_COMPLETE" (report 3), .close none,
        .log "a/b" "STAGE1_COMPLETE" (report 4)]
    (fileName "a_b" = fileName "a/b" ∧ (fileName "a/b").length ≤ longestName ∧
      ∀ s k payload, .log s k payload ∈ calls → fileName s = fileName "a/b" →
        IsOneLine s ∧ IsOneLine k ∧ payload.IsJson IsOneLine) ∧
      (run {} calls).read (.text "a/b") (.ofText? (some "STAGE1_COMPLETE")) =
        .ok [⟨"a/b", .text "STAGE1_COMPLETE", report 1⟩,
          ⟨"a/b", .text "STAGE1_COMPLETE", report 4⟩] := by
  intro report calls
  have hreport {n : Nat} (hn : n < 10) : (report n).IsJson IsOneLine := by
    have hdigits : (n : Int).natAbs < 10 ^ Decimal.maxDigits :=
      hn.trans_le (Nat.le_self_pow (by decide) 10)
    refine .record (by simp) (by simp [IsOneLine, bareLineEnds]) ?_
    simpa using ⟨.int hdigits, .text (by simp [IsOneLine, bareLineEnds])⟩
  have hname : (fileName "a/b").length ≤ longestName := by decide +kernel
  have hlegible : ∀ s k payload, .log s k payload ∈ calls → fileName s = fileName "a/b" →
      IsOneLine s ∧ IsOneLine k ∧ payload.IsJson IsOneLine := by
    intro s k payload hmem _
    simp only [calls, List.mem_cons, List.not_mem_nil, or_false, LogCall.log.injEq,
      reduceCtorEq, false_or] at hmem
    obtain ⟨rfl, rfl, rfl⟩ | ⟨rfl, rfl, rfl⟩ | ⟨rfl, rfl, rfl⟩ | ⟨rfl, rfl, rfl⟩ := hmem
    all_goals
      exact ⟨by simp [IsOneLine, bareLineEnds], by simp [IsOneLine, bareLineEnds],
        hreport (by decide)⟩
  refine ⟨⟨by decide +kernel, hname, hlegible⟩, ?_⟩
  exact (read_run calls "a/b" (some "STAGE1_COMPLETE") hname hlegible).trans
    (by simp [calls, LogCall.eventFor?])

/-- A line that does not read back keeps all sessions of its file from being read. -/
theorem read_of_damaged_line {log : Log} {session line : String} (kind : Value)
    (hname : (fileName session).length ≤ longestName)
    (hline : line ∈ lines (log.textOf (fileName session))) (hblank : isBlank line = false)
    (hdamaged : ofJson? line = none) :
    log.read (.text session) kind = .error .damagedLog := by
  have hmapM (ls : List String) (hmem : line ∈ ls) : ls.mapM readLine = .error .damagedLog := by
    induction ls with
    | nil => contradiction
    | cons l ls ih =>
        rw [List.mapM_cons]
        cases hl : (ofJson? l).bind Event.ofValue? with
        | none =>
            rw [readLine, hl]
            rfl
        | some e =>
            have hne : line ≠ l := by
              rintro rfl
              rw [hdamaged] at hl
              exact nomatch hl
            rw [readLine, hl, ih ((List.mem_cons.mp hmem).resolve_left hne)]
            rfl
  have hkept : line ∈ (lines (log.textOf (fileName session))).filter fun l => !isBlank l :=
    List.mem_filter.mpr ⟨hline, by rw [hblank]; rfl⟩
  rw [read_of_le hname, hmapM _ hkept]
  rfl

/-- A line separator in a report is written as it is and ends the line, so that the session cannot be
read any more. -/
theorem read_run_line_separator :
    (run {} [.log "t" "E" (.record [("k", .text "\u2028")])]).read (.text "t") (.ofText? none) =
      .error .damagedLog := by
  have hlines : lines ((run {} [.log "t" "E" (.record [("k", .text "\u2028")])]).textOf
      (fileName "t")) =
        ["\x7b\"session_id\": \"t\", \"event_type\": \"E\", \"payload\": \x7b\"k\": \"",
          "\"\x7d\x7d"] := by decide +kernel
  have hdamaged : (ofJson? "\"\x7d\x7d").isNone = true := by decide +kernel
  refine read_of_damaged_line _ (by decide +kernel) (hlines ▸ List.mem_cons_of_mem _ List.mem_cons_self)
    (by decide +kernel) (Option.isNone_iff_eq_none.mp hdamaged)

end Log

end Wayfare
