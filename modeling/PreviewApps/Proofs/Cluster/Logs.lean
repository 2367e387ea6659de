import PreviewApps.Cluster.Logs
import PreviewApps.Proofs.Except
import PreviewApps.Proofs.LogLine
import PreviewApps.Proofs.Text.Lines

/-!
Logs of a service: how they are cut down to the lines that are asked for, and when the messages
that were written come back from them.
-/

namespace PreviewApps

namespace LogLine

def Reading.line? : Reading → Option LogLine
  | .timed line => some line
  | _ => none

structure Entry where
  stamp : Stamp
  message : String
  whole : '\n' ∉ message.toList

namespace Entry

def chars (e : Entry) : List Char := e.stamp.chars ++ ' ' :: e.message.toList

def line (e : Entry) : LogLine := ⟨e.stamp.time, e.message⟩

theorem read_chars (e : Entry) : read (String.ofList e.chars) = .timed e.line :=
  read_stamped e.stamp e.message

def Unbroken (e : Entry) : Prop := ∀ c ∈ e.message.toList, Text.isLineEnd c = false

instance (e : Entry) : Decidable e.Unbroken := List.decidableBAll _ e.message.toList

end Entry

def logged (es : List Entry) : String := String.ofList (es.flatMap fun e => e.chars ++ ['\n'])

theorem not_isLineEnd_of_mem_prefix (t : Stamp) {cs : List Char}
    (h : ∀ c ∈ cs, Text.isLineEnd c = false) :
    ∀ c ∈ t.chars ++ ' ' :: cs, Text.isLineEnd c = false := by
  simp only [List.forall_mem_append, List.forall_mem_cons]
  exact ⟨fun c hc => not_isLineEnd_of_isStampChar (t.isStampChar_of_mem_chars c hc), by decide, h⟩

theorem lines_logged_of_unbroken {e : Entry} (h : e.Unbroken) (es : List Entry) :
    Text.lines (logged (e :: es)) = String.ofList e.chars :: Text.lines (logged es) := by
  have hplain := not_isLineEnd_of_mem_prefix e.stamp h
  rw [Text.lines, Text.lines, logged, logged, String.toList_ofList, String.toList_ofList,
    List.flatMap_cons, List.append_assoc, List.singleton_append]
  exact congrArg (List.map String.ofList) (Text.linesFrom_append_lineFeed hplain _)

theorem lines_logged {es : List Entry} (h : ∀ e ∈ es, e.Unbroken) :
    Text.lines (logged es) = es.map fun e => String.ofList e.chars := by
  induction es with
  | nil => rfl
  | cons e es ih =>
    obtain ⟨he, hes⟩ := List.forall_mem_cons.1 h
    rw [lines_logged_of_unbroken he, ih hes, List.map_cons]

theorem read_ne_impossible_of_mem_lines_logged {es : List Entry} (h : ∀ e ∈ es, e.Unbroken) :
    ∀ l ∈ Text.lines (logged es), read l ≠ .impossible := by
  rw [lines_logged h, List.forall_mem_map]
  intro e _ hread
  rw [e.read_chars] at hread
  cases hread

theorem lines_logged_of_not_unbroken {e : Entry} (h : ¬e.Unbroken) (es : List Entry) :
    ∃ cut ls, cut ≠ e.message ∧ Text.lines (logged (e :: es)) =
      String.ofList (e.stamp.chars ++ ' ' :: cut.toList) :: ls := by
  have hend : ∃ c ∈ e.message.toList, Text.isLineEnd c = true := by
    simpa [Entry.Unbroken] using h
  obtain ⟨before, c, after, hmessage, hbefore, hc⟩ := Text.exists_firstLineEnd hend
  have hplain := not_isLineEnd_of_mem_prefix e.stamp hbefore
  have htext : (logged (e :: es)).toList = (e.stamp.chars ++ ' ' :: before) ++
      c :: (after ++ '\n' :: es.flatMap fun e => e.chars ++ ['\n']) := by
    simp only [logged, String.toList_ofList, List.flatMap_cons, Entry.chars, hmessage,
      List.append_assoc, List.cons_append, List.nil_append]
  obtain ⟨ls, hls⟩ := Text.exists_linesFrom_append hplain hc
    (after ++ '\n' :: es.flatMap fun e => e.chars ++ ['\n'])
  refine ⟨String.ofList before, ls.map String.ofList, ?_, ?_⟩
  · intro hcut
    rw [← hcut, String.toList_ofList] at hmessage
    exact absurd (List.append_right_eq_self.1 hmessage.symm) (by simp)
  · rw [Text.lines, htext, hls, String.toList_ofList]
    rfl

end LogLine

namespace Cluster

def isWanted (start : Option Timestamp) (line : LogLine) : Bool :=
  start.all fun t => t.instant ≤ line.time.instant

def wanted (start : Option Timestamp) (ls : List String) : List LogLine :=
  (ls.filterMap fun l => (LogLine.read l).line?).filter (isWanted start)

theorem instant_assumeUtc (t : Timestamp) : t.assumeUtc.instant = t.instant := by
  cases h : t.offset <;> simp [Timestamp.instant, Timestamp.assumeUtc, h, UtcOffset.utc]

theorem wanted_assumeUtc (start : Option Timestamp) (ls : List String) :
    wanted (start.map (·.assumeUtc)) ls = wanted start ls := by
  cases start with
  | none => rfl
  | some t =>
    have hsame : isWanted (some t.assumeUtc) = isWanted (some t) := by
      funext line
      simp only [isWanted, Option.all_some, instant_assumeUtc]
    rw [wanted, Option.map_some, hsame]
    rfl

section TakeLines

variable {start : Option Timestamp} {limit : Int} {taken : Nat} {l : String} {ls : List String}
  {line : LogLine}

theorem takeLines_cons : takeLines start limit taken (l :: ls) = match LogLine.read l with
    | .untimed => takeLines start limit taken ls
    | .impossible => .error .impossibleTime
    | .timed line =>
      if start.any fun t => line.time.instant < t.instant then takeLines start limit taken ls
      else if limit ≤ taken + 1 then .ok [line]
      else takeLines start limit (taken + 1) ls >>= fun rest => pure (line :: rest) := by
  rfl

theorem takeLines_of_isWanted (hread : LogLine.read l = .timed line)
    (h : isWanted start line = true) : takeLines start limit taken (l :: ls) =
      if limit ≤ taken + 1 then .ok [line]
      else takeLines start limit (taken + 1) ls >>= fun rest => pure (line :: rest) := by
  have hafter : (start.any fun t => line.time.instant < t.instant) = false := by
    cases start with
    | none => rfl
    | some t => simpa [isWanted] using h
  rw [takeLines_cons, hread]
  dsimp only
  rw [hafter, if_neg (by decide)]

theorem takeLines_of_not_isWanted (hread : LogLine.read l = .timed line)
    (h : isWanted start line = false) :
    takeLines start limit taken (l :: ls) = takeLines start limit taken ls := by
  have hbefore : (start.any fun t => line.time.instant < t.instant) = true := by
    cases start with
    | none => cases h
    | some t => simpa [isWanted] using h
  rw [takeLines_cons, hread]
  dsimp only
  rw [hbefore, if_pos rfl]

theorem wanted_cons (hread : LogLine.read l = .timed line) : wanted start (l :: ls) =
    if isWanted start line then line :: wanted start ls else wanted start ls := by
  rw [wanted, List.filterMap_cons_some (by rw [hread]; rfl), List.filter_cons]
  rfl

theorem wanted_cons_of_untimed (hread : LogLine.read l = .untimed) :
    wanted start (l :: ls) = wanted start ls := by
  rw [wanted, List.filterMap_cons_none (by rw [hread]; rfl)]
  rfl

theorem takeLines_eq_ok (h : ∀ l ∈ ls, LogLine.read l ≠ .impossible) :
    takeLines start limit taken ls =
      .ok ((wanted start ls).take (max 1 (limit.toNat - taken))) := by
  induction ls generalizing taken with
  | nil => exact congrArg Except.ok List.take_nil.symm
  | cons l ls ih =>
    obtain ⟨hl, hls⟩ := List.forall_mem_cons.1 h
    cases hread : LogLine.read l with
    | untimed =>
      rw [takeLines_cons, hread, wanted_cons_of_untimed hread]
      exact ih hls
    | impossible => exact absurd hread hl
    | timed line =>
      rw [wanted_cons hread]
      cases hwanted : isWanted start line with
      | false =>
        rw [takeLines_of_not_isWanted hread hwanted, if_neg (by decide)]
        exact ih hls
      | true =>
        rw [takeLines_of_isWanted hread hwanted, if_pos rfl]
        by_cases hlast : limit ≤ taken + 1
        · have hone : max 1 (limit.toNat - taken) = 1 := by omega
          rw [if_pos hlast, hone]
          rfl
        · have hmore : max 1 (limit.toNat - taken) = max 1 (limit.toNat - (taken + 1)) + 1 := by
            omega
          rw [if_neg hlast, ih hls, hmore]
          rfl

theorem head_of_takeLines_eq_ok {ls' : List LogLine} (hread : LogLine.read l = .timed line)
    (h : takeLines none limit taken (l :: ls) = .ok ls') : ∃ rest, ls' = line :: rest := by
  rw [takeLines_of_isWanted hread rfl] at h
  split at h
  · cases h
    exact ⟨[], rfl⟩
  · obtain ⟨rest, -, hrest⟩ := bind_eq_ok_iff.1 h
    cases hrest
    exact ⟨rest, rfl⟩

end TakeLines

open LogLine (Entry Stamp logged)

theorem takeLines_logged_iff {limit : Int} {taken : Nat} {es : List Entry}
    (h : ((taken + es.length : Nat) : Int) ≤ limit) :
    takeLines none limit taken (Text.lines (logged es)) = .ok (es.map Entry.line) ↔
      ∀ e ∈ es, e.Unbroken := by
  induction es generalizing taken with
  | nil => exact iff_of_true rfl (by simp)
  | cons e es ih =>
    have hlength : ((taken + 1 + es.length : Nat) : Int) ≤ limit := by
      rw [List.length_cons] at h
      omega
    by_cases he : e.Unbroken
    · have hread := e.read_chars
      have hlines := LogLine.lines_logged_of_unbroken he es
      have hes : (∀ e' ∈ e :: es, e'.Unbroken) ↔ ∀ e' ∈ es, e'.Unbroken := by
        simp [he]
      rw [hes, ← ih hlength, hlines, takeLines_of_isWanted hread rfl]
      split
      · next hlast =>
        have hnone : es = [] := List.eq_nil_of_length_eq_zero (by omega)
        subst hnone
        exact iff_of_true rfl rfl
      · cases htail : takeLines none limit (taken + 1) (Text.lines (logged es)) with
        | error f => exact iff_of_false (fun h => by cases h) (fun h => by cases h)
        | ok ls =>
          change Except.ok (e.line :: ls) = Except.ok (e.line :: es.map Entry.line) ↔ _
          rw [Except.ok.injEq, Except.ok.injEq, List.cons.injEq]
          exact and_iff_right rfl
    · obtain ⟨cut, ls, hcut, hlines⟩ := LogLine.lines_logged_of_not_unbroken he es
      refine iff_of_false ?_ fun hall => he (hall e (List.mem_cons_self ..))
      intro hok
      rw [hlines] at hok
      obtain ⟨rest, hrest⟩ := head_of_takeLines_eq_ok (LogLine.read_stamped e.stamp cut) hok
      have hline : e.line = ⟨e.stamp.time, cut⟩ := (List.cons.inj hrest).1
      exact hcut (congrArg LogLine.message hline).symm

section Sends

variable {α β σ : Type} {answer : Call → σ → Answer × σ} {s : σ}

theorem Program.run_may_bind {absorbed : List Int} {action : Action} {c : Call} {j : Json}
    (h : (answer c s).1 = .ok j) (f : Option Json → Program β) :
    (may absorbed action c >>= f).run answer s = (f (some j)).run answer (answer c s).2 := by
  change (call c _).run answer s = _
  rw [run]
  dsimp only
  rw [h]
  rfl

theorem Program.run_ofExcept_bind {r : Except Fault α} {a : α} (h : r = .ok a)
    (f : α → Program β) : (ofExcept r >>= f).run answer s = (f a).run answer s := by
  rw [h]
  rfl

variable {app : AppName} {service text : String} {start : Option Timestamp} {limit : Int}
  {now : Timestamp}

/-- Pods of the service are listed, and then the text is sent as the log of the first one. -/
def SendsLog (answer : Call → σ → Answer × σ) (s : σ) (app : AppName) (service : String)
    (since : Option Int) (text : String) : Prop :=
  let listing := answer (.list .pods app.namespaceId (Labels.ofNamed app service).selector) s
  ∃ pod pods name log, listing.1 = .ok (.arr (pod :: pods)) ∧ podName pod = .ok name ∧
    (answer (.podLog app.namespaceId name since) listing.2).1 = .ok log ∧ logText log = .ok text

theorem run_logs_of_sendsLog
    (h : SendsLog answer s app service ((start.map (·.assumeUtc)).map (sinceSeconds now)) text) :
    ((logs app service start limit now).run answer s).1 =
      (takeLines (start.map (·.assumeUtc)) limit 0 (Text.lines text)).map some := by
  obtain ⟨pod, pods, name, log, hlisted, hname, hsent, htext⟩ := h
  rw [logs, Program.run_may_bind hlisted]
  dsimp only [Json.items]
  rw [Program.run_ofExcept_bind hname, Program.run_may_bind hsent]
  dsimp only
  rw [Program.run_ofExcept_bind htext]
  cases takeLines (start.map (·.assumeUtc)) limit 0 (Text.lines text) <;> rfl

end Sends

def sending (text : String) : Call → Unit → Answer × Unit
  | .podLog .., s => (.ok (.str text), s)
  | _, s => (.ok (.arr [.obj [("metadata", .obj [("name", .str "db-1")])]]), s)

theorem sendsLog_sending (text : String) (app : AppName) (service : String) (since : Option Int) :
    SendsLog (sending text) () app service since text :=
  ⟨_, [], "db-1", .str text, rfl, rfl, rfl, rfl⟩

/-- Digits finer than a microsecond, and an offset that is not one of hours. -/
def tick : Stamp :=
  ⟨⟨2024, 2, 29, by decide⟩, 12, 30, 59, "123456789".toList, .offset true 3 30 (by decide),
    by decide, List.all_eq_true.1 (by decide)⟩

def tock : Stamp :=
  ⟨⟨2024, 2, 29, by decide⟩, 16, 1, 0, [], .utc, by decide, List.forall_mem_nil _⟩

def startup : List Entry :=
  [⟨tick, "10%", by decide +kernel⟩, ⟨tock, "", by decide +kernel⟩,
    ⟨tock, " ready\ton 8080", by decide +kernel⟩]

theorem unbroken_startup : ∀ e ∈ startup, e.Unbroken := by decide +kernel

section Results

variable {σ : Type} {answer : Call → σ → Answer × σ} {s : σ} {app : AppName} {service text : String}
  {start : Option Timestamp} {limit : Int} {now : Timestamp}

/-- The lines that are wanted are returned up to a limit of at least one. That is the limit that was
given unless it allows none and there is a line. -/
theorem logs_limited_iff
    (hlog : SendsLog answer s app service ((start.map (·.assumeUtc)).map (sinceSeconds now)) text)
    (htimes : ∀ l ∈ Text.lines text, LogLine.read l ≠ .impossible) :
    ((logs app service start limit now).run answer s).1 =
      .ok (some ((wanted start (Text.lines text)).take (max 1 limit.toNat))) ∧
    (((logs app service start limit now).run answer s).1 =
      .ok (some ((wanted start (Text.lines text)).take limit.toNat)) ↔
        0 < limit ∨ wanted start (Text.lines text) = []) := by
  have hresult : ((logs app service start limit now).run answer s).1 =
      .ok (some ((wanted start (Text.lines text)).take (max 1 limit.toNat))) := by
    rw [run_logs_of_sendsLog hlog, takeLines_eq_ok htimes, wanted_assumeUtc, Nat.sub_zero]
    rfl
  refine ⟨hresult, ?_⟩
  rw [hresult, Except.ok.injEq, Option.some.injEq]
  cases wanted start (Text.lines text) with
  | nil => simp
  | cons line rest =>
    by_cases hlimit : 0 < limit
    · have hone : max 1 limit.toNat = limit.toNat := by omega
      exact iff_of_true (by rw [hone]) (.inl hlimit)
    · have hnone : limit.toNat = 0 := by omega
      rw [hnone]
      exact iff_of_false (fun h => by cases h) (fun h => h.elim hlimit (fun h => by cases h))

theorem logs_limited_iff_of_startup :
    let start := some tock.time
    SendsLog (sending (logged startup)) () .master "db"
      ((start.map (·.assumeUtc)).map (sinceSeconds tock.time)) (logged startup) ∧
    (∀ l ∈ Text.lines (logged startup), LogLine.read l ≠ .impossible) ∧
    ((logs .master "db" start 1 tock.time).run (sending (logged startup)) ()).1 =
      .ok (some ((wanted start (Text.lines (logged startup))).take 1)) := by
  have hsent := sendsLog_sending (logged startup) .master "db"
    (((some tock.time).map (·.assumeUtc)).map (sinceSeconds tock.time))
  have htimes := LogLine.read_ne_impossible_of_mem_lines_logged unbroken_startup
  exact ⟨hsent, htimes, (logs_limited_iff hsent htimes).2.2 (.inl (by decide))⟩

theorem logs_exceed_limit_of_zero :
    SendsLog (sending (logged startup)) () .master "db" none (logged startup) ∧
    (∀ l ∈ Text.lines (logged startup), LogLine.read l ≠ .impossible) ∧
    ((logs .master "db" none 0 tock.time).run (sending (logged startup)) ()).1 =
      .ok (some [⟨tick.time, "10%"⟩]) ∧
    (wanted none (Text.lines (logged startup))).take 0 ≠ [⟨tick.time, "10%"⟩] := by
  have hsent := sendsLog_sending (logged startup) .master "db" none
  have htimes := LogLine.read_ne_impossible_of_mem_lines_logged unbroken_startup
  refine ⟨hsent, htimes, ?_, by simp⟩
  rw [run_logs_of_sendsLog hsent, LogLine.lines_logged unbroken_startup]
  exact congrArg (Except.map some)
    ((takeLines_of_isWanted (Entry.read_chars _) rfl).trans (if_pos (by decide)))

/-- Entries up to the limit come back as they were written exactly where no message holds a line
end of another kind. -/
theorem logs_whole_iff {es : List Entry} (hlog : SendsLog answer s app service none (logged es))
    (hlimit : (es.length : Int) ≤ limit) :
    ((logs app service none limit now).run answer s).1 = .ok (some (es.map Entry.line)) ↔
      ∀ e ∈ es, e.Unbroken := by
  have hlength : ((0 + es.length : Nat) : Int) ≤ limit := by rwa [Nat.zero_add]
  have hentries := takeLines_logged_iff hlength
  rw [run_logs_of_sendsLog hlog, ← hentries, exceptMap_eq_ok_iff]
  simp only [Option.map_none, Option.some.injEq, exists_eq_right]

theorem logs_whole_iff_of_startup :
    SendsLog (sending (logged startup)) () .master "db" none (logged startup) ∧
    (startup.length : Int) ≤ 3 ∧
    ((logs .master "db" none 3 tock.time).run (sending (logged startup)) ()).1 =
      .ok (some (startup.map Entry.line)) := by
  have hsent := sendsLog_sending (logged startup) .master "db" none
  have hlength : (startup.length : Int) ≤ 3 := by decide
  exact ⟨hsent, hlength, (logs_whole_iff hsent hlength).2 unbroken_startup⟩

def progress : List Entry := [⟨tick, "10%\r100%", by decide +kernel⟩]

/-- A carriage return in a message, and what stands behind it is lost. -/
theorem logs_cut_of_progress :
    SendsLog (sending (logged progress)) () .master "db" none (logged progress) ∧
    (progress.length : Int) ≤ 10 ∧
    ((logs .master "db" none 10 tock.time).run (sending (logged progress)) ()).1 =
      .ok (some [⟨tick.time, "10%"⟩]) ∧
    progress.map Entry.line ≠ [⟨tick.time, "10%"⟩] := by
  have hsent := sendsLog_sending (logged progress) .master "db" none
  refine ⟨hsent, by decide, ?_, by decide +kernel⟩
  have hcut : Text.lines (logged progress) =
      [String.ofList (tick.chars ++ ' ' :: "10%".toList), "100%"] := by decide +kernel
  have hread : LogLine.read (String.ofList (tick.chars ++ ' ' :: "10%".toList)) =
      .timed ⟨tick.time, "10%"⟩ := LogLine.read_stamped tick "10%"
  have htaken : takeLines none 10 0 (Text.lines (logged progress)) = .ok [⟨tick.time, "10%"⟩] := by
    rw [hcut, takeLines_of_isWanted hread rfl, if_neg (by decide)]
    rfl
  rw [run_logs_of_sendsLog hsent]
  exact congrArg (Except.map some) htaken

end Results

end Cluster

end PreviewApps
