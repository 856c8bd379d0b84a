import Dialer.Proofs.Service.Intact
import Dialer.Proofs.Service.Monitors

/-!
# Attachments

A channel is attached when events begin to go to it: the worker carries out the job that says so, or
a start takes the channel from the slot. In a service that nothing breaks, a worker detaches its
channel only with its table, and then no job for another is left.
-/

namespace Dialer.Service

variable {κ : Type}

namespace State

variable {s t : State κ} {l : Label κ} {labels : List (Label κ)} {thread : Thread} {c : Nat}

/-- The channel of a call for a monitor that begins. -/
def asked? (s : State κ) : Label κ → Option Nat
  | .begin _ .monitor => if s.settings.monitor then some s.table.channels.length else none
  | _ => none

/-- The channel that events go to from a step on: the one that the job in hand names, or for a new
worker the one in the slot. -/
def attached? (s : State κ) (l : Label κ) : Option Nat :=
  if (s.after l).generations = s.generations then (s.taken? l).bind Job.channel? else s.slot

def asks (s : State κ) (labels : List (Label κ)) : List Nat := collect asked? s labels

def attachments (s : State κ) (labels : List (Label κ)) : List Nat := collect attached? s labels

theorem begin_of_asked? (ha : s.asked? l = some c) : ∃ thread, l = .begin thread .monitor ∧
    s.settings.monitor = true ∧ s.table.channels.length = c := by
  cases l with
  | begin thread call =>
    cases call with
    | monitor =>
      simp only [asked?] at ha
      split at ha
      · next hsettings => exact ⟨thread, rfl, hsettings, Option.some.inj ha⟩
      · cases ha
    | _ => cases ha
  | _ => cases ha

/-! ### Steps of calls -/

theorem begin_channels (s : State κ) (thread : Thread) (call : Call κ) :
    (s.begin thread call).table.channels = s.table.channels ++
        List.replicate (s.asked? (.begin thread call)).toList.length ({} : Channel Event) ∧
      (s.begin thread call).table.record = s.table.record := by
  cases call with
  | submit request =>
    simp only [begin, asked?]
    split <;> exact ⟨(List.append_nil _).symm, rfl⟩
  | monitor =>
    simp only [begin, asked?]
    split
    · exact ⟨rfl, rfl⟩
    · exact ⟨(List.append_nil _).symm, rfl⟩
  | stop =>
    simp only [begin, asked?]
    split <;> exact ⟨(List.append_nil _).symm, rfl⟩
  | release =>
    simp only [begin, asked?]
    split
    · cases thread with
      | caller n => exact ⟨(List.append_nil _).symm, rfl⟩
      | worker =>
        simp only [releaseLast]
        split <;> exact ⟨(List.append_nil _).symm, rfl⟩
    · exact ⟨(List.append_nil _).symm, rfl⟩
  | _ => exact ⟨(List.append_nil _).symm, rfl⟩

/-- No step of a call touches what is queued in a channel. Only the first of a call for a monitor
opens one. -/
theorem call_channels (s : State κ) (hl : l.isCall) :
    (s.after l).table.channels =
        s.table.channels ++ List.replicate (s.asked? l).toList.length ({} : Channel Event) ∧
      (s.after l).table.record = s.table.record := by
  have hpost : ∀ (table : Table κ) job, ((table.after (.enqueue job)).channels,
      (table.after (.enqueue job)).record) = (table.channels, table.record) := fun table job =>
    have hfront := front_congr (front_enqueue table job)
    Prod.ext hfront.2.1 hfront.2.2.2.2
  have hsame : ∀ {u : State κ}, (u.table.channels, u.table.record) =
      (s.table.channels, s.table.record) → u.table.channels = s.table.channels ++ [] ∧
        u.table.record = s.table.record := fun h =>
    ⟨(congrArg Prod.fst h).trans (List.append_nil _).symm, congrArg Prod.snd h⟩
  cases l with
  | begin thread call => exact begin_channels s thread call
  | proceed thread grant =>
    exact hsame (view_proceed (fun table => (table.channels, table.record)) (fun _ _ => rfl) hpost
      s thread grant (.inl rfl))
  | giveUp => exact hsame (view_giveUp (fun table => (table.channels, table.record)) s)
  | _ => cases hl

theorem offered_after (he : s.Enabled l) (ha : s.asked? l = none) :
    ∀ c ∈ (s.after l).offered, c ∈ s.offered := by
  intro c hc
  cases hl : l.isCall with
  | false => rwa [offered, (elsewhere_after hl).calls] at hc
  | true =>
    refine ((acts_after he).offered c hc).resolve_right fun hnew => ?_
    have hlt := hnew.2
    rw [(call_channels s hl).1, ha, Option.toList_none, List.length_nil, List.replicate_zero,
      List.append_nil, ← hnew.1] at hlt
    exact Nat.lt_irrefl _ hlt

theorem attachments_snoc (s : State κ) (labels : List (Label κ)) (l : Label κ) :
    s.attachments (labels ++ [l]) = s.attachments labels ++ ((s.run labels).attached? l).toList :=
  collect_snoc _ _ _ _

/-- Calls for a monitor bring one new channel after the other. -/
theorem asks_sorted (settings : Settings)
    (hp : (initial settings : State κ).Possible labels) :
    ((initial settings : State κ).asks labels).Pairwise (· < ·) ∧
      ∀ c ∈ (initial settings : State κ).asks labels,
        c < ((initial settings : State κ).run labels).table.channels.length := by
  induction labels using List.reverseRecOn with
  | nil => exact ⟨.nil, nofun⟩
  | append_singleton labels l ih =>
    obtain ⟨hp, he⟩ := possible_snoc.mp hp
    obtain ⟨hsorted, hlt⟩ := ih hp
    have hreach := (Reachable.initial settings).run hp
    have hle := (acts_after he).tunes.channels_le hreach.ruled.lawful
    rw [asks, collect_snoc, run_snoc]
    cases hask : ((initial settings).run labels).asked? l with
    | none =>
      rw [Option.toList_none, List.append_nil]
      exact ⟨hsorted, fun c hc => Nat.lt_of_lt_of_le (hlt c hc) hle⟩
    | some c =>
      have hcall : l.isCall := by
        obtain ⟨thread, rfl, -⟩ := begin_of_asked? hask
        rfl
      obtain ⟨-, -, -, rfl⟩ := begin_of_asked? hask
      have hlength := congrArg List.length (call_channels ((initial settings).run labels) hcall).1
      rw [hask, List.length_append, List.length_replicate] at hlength
      refine ⟨List.pairwise_append.mpr ⟨hsorted, by simp, fun d hd e he => ?_⟩, fun d hd => ?_⟩
      · rw [Option.mem_toList, Option.some_inj] at he
        exact he ▸ hlt d hd
      · rw [hlength]
        rcases List.mem_append.mp hd with hd | hd
        · exact Nat.lt_of_lt_of_le (hlt d hd) (Nat.le_add_right _ _)
        · rw [Option.mem_toList, Option.some_inj] at hd
          exact hd ▸ Nat.lt_succ_self _

/-! ### The channel that events go to -/

theorem filterMap_toList {α β : Type} (f : α → Option β) (x : Option α) :
    x.toList.filterMap f = (x.bind f).toList := by
  cases x with
  | none => rfl
  | some a => cases h : f a <;> simp [h]

theorem taken?_sublist (s : State κ) (l : Label κ) : (s.taken? l).toList.Sublist s.jobs := by
  have hhead : (s.inHand.head?).toList.Sublist s.jobs := by
    refine List.Sublist.trans ?_ (List.sublist_append_left _ _)
    cases s.inHand with
    | nil => exact List.Sublist.refl _
    | cons job rest => exact (List.nil_sublist rest).cons_cons job
  cases l with
  | work answers => exact hhead
  | _ => exact List.nil_sublist _

/-- What a step does to the jobs and to the channel that events go to. -/
inductive Steers (s : State κ) (l : Label κ) : Prop
  /-- A new worker is started where there is none. -/
  | renews {thread : Thread} (hp : s.point? thread = some (.holding .start))
      (hc : s.table.isClosed) (hj : s.jobs = []) (ha : s.attached? l = s.slot)
      (hc' : ¬ (s.after l).table.isClosed) (hj' : (s.after l).jobs = [])
      (hm : (s.after l).table.monitor = s.slot)
  /-- The worker is there before and after. -/
  | goesOn (hc : ¬ s.table.isClosed) (hc' : ¬ (s.after l).table.isClosed)
      (hj : s.jobs ++ (s.left? l).toList = (s.taken? l).toList ++ (s.after l).jobs)
      (ha : s.attached? l = (s.taken? l).bind Job.channel?)
      (hm : (s.after l).table.monitor = (s.attached? l).or s.table.monitor)
  /-- The worker is not there any more. -/
  | ends (hc' : (s.after l).table.isClosed) (hj' : (s.after l).jobs = [])
      (ha : s.attached? l = (s.taken? l).bind Job.channel?)

section After

variable (hs : Reachable s) (he : s.Enabled l) (hi : Intact (s.after l))
include hs he hi

theorem Reachable.steers_after : Steers s l := by
  have hr := hs.ruled
  have hold := hi.of_after hr he
  rcases (passes_after hr.manned.sound he).generations with hg | ⟨thread, hl⟩
  · have ha : s.attached? l = (s.taken? l).bind Job.channel? := if_pos hg
    by_cases hc' : (s.after l).table.isClosed
    · exact .ends hc' ((hs.step he).jobs_of_closed hi hc') ha
    · have hu' := hi.isUp hc'
      have hu := hu'.of_after hr he hg
      obtain ⟨hj, hm⟩ := hu.agenda_after hr hs.opened he hu' hg hi.kept
      exact .goesOn hu.unclosed hc' hj ha (ha ▸ hm)
  · have hc := (hr.manned.fallow_of_gone (hr.guarded.gone_of_launched hl)).closed
    refine .renews hl.point hc (hs.jobs_of_closed hold hc) (if_neg ?_) ?_ ?_ ?_
    · rw [hl.generations]
      exact Nat.succ_ne_self _
    · rw [hl.table]
      simp [freshTable, InFlight.State.isClosed, Readiness.Watch.ofCapacity]
    · rw [jobs, inHand_of_idle (by rw [hl.table]; rfl), hl.table]
      rfl
    · rw [hl.table]
      rfl

theorem Reachable.silent_after (h : s.table.isClosed → s.table.monitor = none)
    (hc : (s.after l).table.isClosed) : (s.after l).table.monitor = none := by
  have hr := hs.ruled
  have hold := hi.of_after hr he
  cases (acts_after he).tunes with
  | same hf =>
    obtain ⟨hm, -, hclosed, -⟩ := front_congr hf
    exact hm.trans (h (hclosed ▸ hc))
  | launched hf =>
    obtain ⟨-, -, hclosed, -⟩ := front_congr hf
    rw [hclosed] at hc
    simp [freshTable, InFlight.State.isClosed, Readiness.Watch.ofCapacity] at hc
  | received hreceive _ hf =>
    obtain ⟨hm, -, hclosed, -⟩ := front_congr hf
    obtain ⟨hm', hclosed'⟩ := InFlight.State.monitor_of_isReceiving s.table hreceive
    exact (hm.trans hm').trans (h (hclosed' ▸ hclosed ▸ hc))
  | @worked w x a hw _ hdeed hf =>
    obtain ⟨hm, -, hclosed, -⟩ := front_congr hf
    rw [hclosed] at hc
    rw [hm]
    by_cases hwatch : ∃ monitor, a = .watchOn monitor
    · -- There is such a job only before the table is given up.
      obtain ⟨monitor, rfl⟩ := hwatch
      obtain ⟨channel, hmem, -⟩ := mem_ordered_of_deed? hw hdeed
      have hclosed : s.table.isClosed := hc
      rw [ordered, hs.jobs_of_closed hold hclosed] at hmem
      cases hmem
    · exact (InFlight.State.speaks_after s.table (fun monitor heq => hwatch ⟨monitor, heq⟩)
        (Duty.isReceiving_of_deed? hdeed)).silent h hc

end After

end State

end Dialer.Service
