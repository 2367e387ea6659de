import PreviewApps.Proofs.Binary64
import PreviewApps.Proofs.Cluster.History
import PreviewApps.Proofs.Cluster.Logs
import PreviewApps.Proofs.LogLine.Instant
import PreviewApps.Proofs.Time.Timestamp

/-!
Logs from a start on. The server is asked for the last seconds, which always reach back to the
start, and of the lines it sends those before the start are dropped. Both steps together leave the
lines that are not before the start, whatever digits their times have.
-/

namespace PreviewApps

namespace LogLine.Stamp

variable (t : Stamp)

def IsFrom (start : Timestamp) : Prop := (start.instant : ℚ) ≤ t.instant

def IsWithin (seconds : Int) (now : Timestamp) : Prop :=
  (now.instant : ℚ) - t.instant ≤ ((seconds * 1000000 : Int) : ℚ)

instance (start : Timestamp) : Decidable (t.IsFrom start) :=
  inferInstanceAs (Decidable ((start.instant : ℚ) ≤ t.instant))

instance (seconds : Int) (now : Timestamp) : Decidable (t.IsWithin seconds now) :=
  inferInstanceAs (Decidable ((now.instant : ℚ) - t.instant ≤ ((seconds * 1000000 : Int) : ℚ)))

end LogLine.Stamp

namespace Cluster

open LogLine (Entry Stamp logged)

theorem div_le_wholeSeconds {span : Int} (hspan : 0 ≤ span) (h : span.natAbs < 2 ^ 53 * 1000000) :
    span / 1000000 ≤ wholeSeconds span := by
  have hround := Binary64.div_le_div_nearest h
  rw [wholeSeconds]
  dsimp only
  rw [if_neg (Int.not_lt.2 hspan)]
  omega

theorem one_le_sinceSeconds (now start : Timestamp) : 1 ≤ sinceSeconds now start :=
  Int.le_max_left ..

theorem span_lt_sinceSeconds (now start : Timestamp) :
    now.instant - start.instant < sinceSeconds now start * 1000000 := by
  have hnow := now.natAbs_instant_lt
  have hstart := start.natAbs_instant_lt
  have hone := one_le_sinceSeconds now start
  by_cases hspan : 0 ≤ now.instant - start.instant
  · have hwhole := div_le_wholeSeconds hspan (by omega)
    have hsince : wholeSeconds (now.instant - start.instant) + 1 ≤ sinceSeconds now start :=
      Int.le_max_right ..
    omega
  · omega

theorem isWithin_sinceSeconds {t : Stamp} {start : Timestamp} (h : t.IsFrom start)
    (now : Timestamp) : t.IsWithin (sinceSeconds now start) now := by
  have hspan : ((now.instant - start.instant : Int) : ℚ) ≤
      ((sinceSeconds now start * 1000000 : Int) : ℚ) :=
    Int.cast_le.2 (span_lt_sinceSeconds now start).le
  rw [Int.cast_sub] at hspan
  exact (sub_le_sub_left h _).trans hspan

theorem sinceSeconds_assumeUtc (now start : Timestamp) :
    sinceSeconds now start.assumeUtc = sinceSeconds now start := by
  rw [sinceSeconds, sinceSeconds, instant_assumeUtc]

theorem isWanted_time_iff (t : Stamp) (message : String) (start : Timestamp) :
    isWanted (some start.assumeUtc) ⟨t.time, message⟩ = true ↔ t.IsFrom start := by
  rw [isWanted, Option.all_some, decide_eq_true_eq, instant_assumeUtc, t.le_instant_time_iff]
  rfl

theorem takeLines_printed (t : Stamp) (message : String) (start : Timestamp) (limit : Int)
    (taken : Nat) (ls : List String) :
    takeLines (some start.assumeUtc) limit taken (t.printed message :: ls) =
      if t.IsFrom start then
        if limit ≤ taken + 1 then .ok [⟨t.time, message⟩]
        else takeLines (some start.assumeUtc) limit (taken + 1) ls >>= fun rest =>
          pure (⟨t.time, message⟩ :: rest)
      else takeLines (some start.assumeUtc) limit taken ls := by
  have hread := LogLine.read_stamped t message
  have hwanted := isWanted_time_iff t message start
  by_cases h : t.IsFrom start
  · rw [if_pos h]
    exact takeLines_of_isWanted hread (hwanted.2 h)
  · rw [if_neg h]
    exact takeLines_of_not_isWanted hread (Bool.eq_false_iff.2 fun htrue => h (hwanted.1 htrue))

theorem wanted_logged {es : List Entry} (h : ∀ e ∈ es, e.Unbroken) (start : Timestamp) :
    wanted (some start.assumeUtc) (Text.lines (logged es)) =
      (es.filter fun e => e.stamp.IsFrom start).map Entry.line := by
  have hread : ∀ e : Entry, (LogLine.read (String.ofList e.chars)).line? = some e.line := by
    intro e
    rw [e.read_chars]
    rfl
  have hwanted : isWanted (some start.assumeUtc) ∘ Entry.line =
      fun e => decide (e.stamp.IsFrom start) := by
    funext e
    exact Bool.eq_iff_iff.2 ((isWanted_time_iff ..).trans decide_eq_true_iff.symm)
  rw [wanted, LogLine.lines_logged h, List.filterMap_map]
  simp only [Function.comp_def, hread, List.filterMap_eq_map']
  rw [List.filter_map, hwanted]

theorem filter_isFrom_of_isWithin (es : List Entry) (now start : Timestamp) :
    ((es.filter fun e => e.stamp.IsWithin (sinceSeconds now start) now).filter
      fun e => e.stamp.IsFrom start) = es.filter fun e => e.stamp.IsFrom start := by
  rw [List.filter_filter]
  refine List.filter_congr fun e _ => ?_
  by_cases h : e.stamp.IsFrom start
  · simp [h, isWithin_sinceSeconds h now]
  · simp [h]

def reachesBack (now start : Timestamp) : Contract where
  expects _ := True
  before _ c := ∀ ns pod since, c = .podLog ns pod since → since = some (sinceSeconds now start)
  faulty _ _ := True

theorem reachesBack_may {now start : Timestamp} {absorbed : List Int} {action : Action} {c : Call}
    {h : History}
    (hc : ∀ ns pod since, c = .podLog ns pod since → since = some (sinceSeconds now start)) :
    (Program.may absorbed action c).Honours (reachesBack now start) h fun _ _ => True :=
  Program.honours_may hc (fun _ _ => trivial) (fun _ _ => trivial) (fun _ _ => trivial)

theorem reachesBack_logs (app : AppName) (service : String) (start now : Timestamp) (limit : Int) :
    (logs app service (some start) limit now).Honours (reachesBack now start) []
      fun _ _ => True := by
  refine Program.Honours.bind ((reachesBack_may (by nofun)).mono ?_)
  intro h found _
  cases found with
  | none => trivial
  | some j =>
    cases hitems : j.items with
    | nil =>
      simp only [hitems]
      trivial
    | cons pod pods =>
      simp only [hitems]
      refine Program.Honours.bind (Program.honours_ofExcept ?_ fun _ _ => trivial)
      intro name _
      have hsince : ∀ ns pod since, Call.podLog app.namespaceId name
          (some (sinceSeconds now start.assumeUtc)) = .podLog ns pod since →
            since = some (sinceSeconds now start) := by
        rintro ns pod since ⟨⟩
        rw [sinceSeconds_assumeUtc]
      refine Program.Honours.bind ((reachesBack_may hsince).mono ?_)
      intro h' log _
      cases log with
      | none => trivial
      | some log =>
        refine Program.Honours.bind (Program.honours_ofExcept ?_ fun _ _ => trivial)
        intro text _
        exact Program.Honours.bind (Program.honours_ofExcept (fun _ _ => trivial) fun _ _ => trivial)

section Results

variable {σ : Type} {answer : Call → σ → Answer × σ} {s : σ} {app : AppName} {service : String}
  {es : List Entry} {start now : Timestamp} {limit : Int}

/-- The server has a log with these entries, of which it sends those that are not older than it is
asked for. -/
def SendsSince (answer : Call → σ → Answer × σ) (s : σ) (app : AppName) (service : String)
    (now : Timestamp) (es : List Entry) : Prop :=
  ∀ n, SendsLog answer s app service (some n)
    (logged (es.filter fun e => e.stamp.IsWithin n now))

theorem run_logs_of_sendsSince (hlog : SendsSince answer s app service now es)
    (h : ∀ e ∈ es, e.Unbroken) :
    ((logs app service (some start) limit now).run answer s).1 = .ok (some
      (((es.filter fun e => e.stamp.IsFrom start).map Entry.line).take (max 1 limit.toNat))) := by
  have hsent : ∀ e ∈ es.filter fun e => e.stamp.IsWithin (sinceSeconds now start) now,
      e.Unbroken := fun e he => h e (List.mem_of_mem_filter he)
  have hsince := hlog (sinceSeconds now start)
  rw [← sinceSeconds_assumeUtc] at hsince
  rw [run_logs_of_sendsLog hsince, sinceSeconds_assumeUtc, Option.map_some,
    takeLines_eq_ok (LogLine.read_ne_impossible_of_mem_lines_logged hsent), wanted_logged hsent,
    filter_isFrom_of_isWithin]
  rfl

/-- A log is asked for with at least a second, and with so many that no line is left out that is not
before the start. Of the lines that are sent those not before the start are taken, compared with all
their digits. So the log is returned from the start on, and from nowhere else. -/
theorem logs_reach_back_exactly (answer : Call → σ → Answer × σ) (s : σ) (app : AppName)
    (service : String) (start now : Timestamp) (limit : Int) :
    (∀ ns pod since a, (.podLog ns pod since, a) ∈
        (logs app service (some start) limit now).history answer s →
      ∃ n, since = some n ∧ 1 ≤ n ∧ ∀ t : Stamp, t.IsFrom start → t.IsWithin n now) ∧
    (∀ (t : Stamp) (message : String) (taken : Nat) (ls : List String),
      takeLines (some start.assumeUtc) limit taken (t.printed message :: ls) =
        if t.IsFrom start then
          if limit ≤ taken + 1 then .ok [⟨t.time, message⟩]
          else takeLines (some start.assumeUtc) limit (taken + 1) ls >>= fun rest =>
            pure (⟨t.time, message⟩ :: rest)
        else takeLines (some start.assumeUtc) limit taken ls) ∧
    ∀ es : List Entry, (∀ e ∈ es, e.Unbroken) → SendsSince answer s app service now es →
      ((logs app service (some start) limit now).run answer s).1 = .ok (some
        (((es.filter fun e => e.stamp.IsFrom start).map Entry.line).take
          (max 1 limit.toNat))) := by
  refine ⟨?_, ?_, fun es h hlog => run_logs_of_sendsSince hlog h⟩
  · intro ns pod since a hmem
    obtain ⟨past, rest, hsplit⟩ := List.append_of_mem hmem
    have hsince := Program.before_of_honours (reachesBack_logs app service start now limit)
      (fun _ _ => trivial) hsplit ns pod since rfl
    exact ⟨_, hsince, one_le_sinceSeconds now start, fun t ht => isWithin_sinceSeconds ht now⟩
  · intro t message taken ls
    exact takeLines_printed t message start limit taken ls

def justAfterTick : Timestamp :=
  ⟨tick.date, ⟨16, 0, 59, 123457, by decide⟩, none⟩

def sendingSince (now : Timestamp) (es : List Entry) : Call → Unit → Answer × Unit
  | .podLog _ _ (some n), s => (.ok (.str (logged (es.filter fun e => e.stamp.IsWithin n now))), s)
  | c, s => sending "" c s

theorem logs_reach_back_exactly_of_startup :
    (∀ e ∈ startup, e.Unbroken) ∧
    SendsSince (sendingSince tock.time startup) () .master "db" tock.time startup ∧
    ((logs .master "db" (some justAfterTick) 5 tock.time).run
      (sendingSince tock.time startup) ()).1 =
        .ok (some [⟨tock.time, ""⟩, ⟨tock.time, " ready\ton 8080"⟩]) := by
  have hsent : SendsSince (sendingSince tock.time startup) () .master "db" tock.time startup :=
    fun _ => ⟨_, [], "db-1", .str _, rfl, rfl, rfl, rfl⟩
  have hfrom : (startup.filter fun e => e.stamp.IsFrom justAfterTick).map Entry.line =
      [⟨tock.time, ""⟩, ⟨tock.time, " ready\ton 8080"⟩] := by decide +kernel
  have hlogs := (logs_reach_back_exactly (sendingSince tock.time startup) () .master "db"
    justAfterTick tock.time 5).2.2 startup unbroken_startup hsent
  rw [hfrom] at hlogs
  exact ⟨unbroken_startup, hsent, hlogs⟩

end Results

end Cluster

end PreviewApps
