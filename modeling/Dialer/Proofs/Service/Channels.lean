import Dialer.Proofs.InFlight.Listener
import Dialer.Proofs.Service.Deeds
import Dialer.Proofs.Service.Resolution

/-!
# Steps of the service and channels

Channels come from calls for a monitor alone. From there a channel gets into the slot, and by a job
to the worker, which has its table publish on it; a start takes the one in the slot. A step does one
of these things at a time, so that no channel is ever in use that was not opened.
-/

namespace Dialer.Service

open InFlight.State (Lawful HasReceivers)

variable {κ : Type}

def Job.channel? : Job κ → Option Nat
  | .watchOn channel => some channel
  | _ => none

def Operation.channel? : Operation κ → Option Nat
  | .monitor channel => some channel
  | _ => none

/-- The channel that a call is still to put down somewhere. -/
def Point.channel? (p : Point κ) : Option Nat := p.operation?.bind Operation.channel?

theorem Operation.channel?_of_job {op : Operation κ} {job : Job κ} (h : op.job? = some job) :
    op.channel? = job.channel? := by
  cases op <;> simp [Operation.job?] at h <;> subst h <;> rfl

namespace Duty

variable {d : Duty κ} {a : Action κ} {b : InFlight.Action (Tagged κ) (Job κ)}

theorem mem_jobs_of_deed? {monitor : Option Nat} (h : d.deed? a = some (.watchOn monitor)) :
    ∃ channel, monitor = some channel ∧ .watchOn channel ∈ d.jobs := by
  cases a with
  | work answers =>
    simp only [deed?] at h
    split at h
    · split at h
      · cases h
      · cases hs : d.worker.stage <;> simp [hs, Stage.deed?] at h
    · next job rest hf =>
      split at h
      · simp at h
      · next hb =>
        cases job with
        | watchOn channel =>
          refine ⟨channel, by simpa [Job.deed?] using h.symm, ?_⟩
          rw [jobs_of_task hf (by simpa using hb)]
          exact List.mem_cons_self
        | dial request => simp [Job.deed?] at h
        | halt => simp [Job.deed?] at h
    · cases h
    · simp at h
  | leave panic => simp [deed?] at h
  | enqueue job => simp [deed?] at h
  | lower => cases h

theorem isReceiving_of_deed? (h : d.deed? a = some b) : b.isReceiving = false := by
  cases a with
  | work answers =>
    simp only [deed?] at h
    split at h
    · split at h
      · cases h
      · cases hs : d.worker.stage <;> simp [hs, Stage.deed?] at h <;> subst h <;> rfl
    · next job rest hf =>
      split at h
      · obtain rfl := Option.some.inj h
        rfl
      · cases job <;> simp [Job.deed?] at h <;> subst h <;> rfl
    · cases h
    · obtain rfl := Option.some.inj h
      rfl
  | leave panic =>
    obtain rfl := Option.some.inj h
    rfl
  | enqueue job =>
    obtain rfl := Option.some.inj h
    rfl
  | lower => cases h

end Duty

namespace State

variable {s t : State κ} {l : Label κ} {labels : List (Label κ)} {thread : Thread} {c : Nat}

/-- The channels that the worker is still to publish on, one after the other. -/
def ordered (s : State κ) : List Nat := s.jobs.filterMap Job.channel?

/-- The channels of the calls that are still to put theirs down somewhere. -/
def offered (s : State κ) : List Nat := s.calls.filterMap (·.2.channel?)

/-- The channel that a step stores in the slot. -/
def stored? (s : State κ) : Label κ → Option Nat
  | .proceed thread _ =>
    match s.point? thread with
    | some (.holding op) => op.channel?
    | _ => none
  | .giveUp =>
    match s.point? .worker with
    | some (.wanting op) => op.channel?
    | _ => none
  | _ => none

/-! ### What a step does about channels -/

theorem mem_offered_of_point? {p : Point κ} (hp : s.point? thread = some p)
    (hc : p.channel? = some c) : c ∈ s.offered :=
  List.mem_filterMap.mpr ⟨(thread, p), mem_calls_of_point? hp, hc⟩

theorem mem_offered_of_stored? (h : s.stored? l = some c) : c ∈ s.offered := by
  unfold stored? at h
  split at h
  · split at h
    · next hp => exact mem_offered_of_point? hp h
    · cases h
  · split at h
    · next hp => exact mem_offered_of_point? hp h
    · cases h
  · cases h

theorem tryLaunch_cases (s : State κ) (grant : Grant) :
    (s.tryLaunch grant).2 = s ∨ (s.tryLaunch grant).2 = s.launch := by
  unfold tryLaunch
  split
  · exact .inl rfl
  · split
    · exact .inl rfl
    · split
      · exact .inl rfl
      · exact .inr rfl

/-! ### What calls do not touch -/

section View

variable {β : Type} (view : Table κ → β)
  (hwatch : ∀ table watch, view { table with watch := watch } = view table)
  (hpost : ∀ table job, view (table.after (.enqueue job)) = view table)

include hwatch in
theorem view_begin (hopen : ∀ table, view (table.after .openChannel) = view table)
    (s : State κ) (thread : Thread) (call : Call κ) :
    view (s.begin thread call).table = view s.table := by
  cases call with
  | submit request =>
    simp only [begin]
    split <;> rfl
  | monitor =>
    simp only [begin]
    split
    · exact hopen _
    · rfl
  | stop =>
    simp only [begin]
    split <;> rfl
  | release =>
    simp only [begin]
    split
    · cases thread with
      | caller n => rfl
      | worker =>
        simp only [releaseLast]
        split
        · exact hwatch _ _
        · rfl
    · rfl
  | _ => rfl

theorem view_look (s : State κ) (thread : Thread) (grant : Grant) (op : Operation κ)
    (hf : view s.freshTable = view s.table ∨
      (s.look thread grant op).generations = s.generations) :
    view (s.look thread grant op).table = view s.table := by
  cases op with
  | start =>
    simp only [look] at hf ⊢
    split at hf
    · next hrunning => rw [if_pos hrunning]; rfl
    · next hidle =>
      rw [if_neg hidle]
      rcases htried : s.tryLaunch grant with ⟨result, u⟩
      rw [htried] at hf
      rcases tryLaunch_cases s grant with hu | hu <;> rw [htried] at hu <;> subst hu
      · rfl
      · exact hf.resolve_right (Nat.succ_ne_self _)
  | lifecycle => rfl
  | isRunning => rfl
  | _ =>
    simp only [look]
    split <;> rfl

include hpost in
theorem view_send (s : State κ) (thread : Thread) (op : Operation κ) :
    view (s.send thread op).table = view s.table := by
  cases op with
  | submit n request =>
    simp only [send]
    rcases enqueue_cases s (.dial request) with ⟨heq, -⟩ | ⟨heq, -⟩ <;> rw [heq]
    · exact hpost _ _
    · rfl
  | monitor channel =>
    simp only [send]
    rcases enqueue_cases s (.watchOn channel) with ⟨heq, -⟩ | ⟨heq, -⟩ <;> rw [heq]
    · exact hpost _ _
    · rfl
  | stop =>
    simp only [send]
    rcases enqueue_cases s .halt with ⟨heq, -⟩ | ⟨heq, -⟩ <;> rw [heq]
    · exact hpost _ _
    · rfl
  | _ => rfl

include hwatch hpost in
theorem view_proceed (s : State κ) (thread : Thread) (grant : Grant)
    (hf : view s.freshTable = view s.table ∨
      (s.proceed thread grant).generations = s.generations) :
    view (s.proceed thread grant).table = view s.table := by
  simp only [proceed] at hf ⊢
  cases hp : s.point? thread with
  | none => rfl
  | some p =>
    cases p with
    | wanting op => rfl
    | holding op =>
      simp only [hp] at hf
      exact view_look view s thread grant op hf
    | sending op => exact view_send view hpost s thread op
    | joining =>
      simp only [join]
      split <;> exact hwatch _ _
    | leaving access result =>
      simp only [finish]
      split <;> rfl

theorem view_giveUp (s : State κ) : view s.giveUp.table = view s.table := by
  simp only [giveUp]
  cases s.point? .worker with
  | none => rfl
  | some p =>
    cases p with
    | wanting op => cases op <;> rfl
    | _ => rfl

end View

/-- What others see of a table: where its events go, and which attempts and records it holds. -/
def front (table : Table κ) : Option Nat × List (Channel Event) × Bool ×
    List (Readiness.Token × InFlight.Entry (Tagged κ)) ×
      List (InFlight.Happening (Tagged κ) (Job κ)) :=
  (table.monitor, table.channels, table.isClosed, table.entries, table.record)

/-- What happens to the table of a service, as others see it. -/
inductive Tunes (s : State κ) (table : Table κ) : Prop
  | same (h : front table = front s.table)
  /-- A new worker publishes on the channel in the slot. -/
  | launched (h : front table = front s.freshTable)
  | received {a : InFlight.Action (Tagged κ) (Job κ)} (hr : a.isReceiving)
      (ha : a.Enabled s.table) (h : front table = front (s.table.after a))
  | worked {w : Worker} {x : Duty.Action κ} {a : InFlight.Action (Tagged κ) (Job κ)}
      (hw : s.worker = some w) (hx : Duty.Enabled ⟨s.table, w⟩ x)
      (ha : Duty.deed? ⟨s.table, w⟩ x = some a) (h : front table = front (s.table.after a))

theorem front_congr {table table' : Table κ} (h : front table = front table') :
    table.monitor = table'.monitor ∧ table.channels = table'.channels ∧
      table.isClosed = table'.isClosed ∧ table.entries = table'.entries ∧
        table.record = table'.record := by
  simpa [front] using h

theorem Tunes.congr {table table' : Table κ} (h : Tunes s table)
    (hf : front table' = front table) : Tunes s table' := by
  cases h with
  | same h => exact .same (hf.trans h)
  | launched h => exact .launched (hf.trans h)
  | received hr ha h => exact .received hr ha (hf.trans h)
  | worked hw hx ha h => exact .worked hw hx ha (hf.trans h)

theorem mem_ordered_of_deed? {w : Worker} {x : Duty.Action κ} {monitor : Option Nat}
    (hw : s.worker = some w) (h : Duty.deed? ⟨s.table, w⟩ x = some (.watchOn monitor)) :
    ∃ channel ∈ s.ordered, monitor = some channel := by
  obtain ⟨channel, hm, hj⟩ := Duty.mem_jobs_of_deed? h
  rw [← jobs_eq hw] at hj
  exact ⟨channel, List.mem_filterMap.mpr ⟨_, hj, rfl⟩, hm⟩

/-- A channel that no call brought before. -/
def IsNew (s t : State κ) (c : Nat) : Prop :=
  c = s.table.channels.length ∧ c < t.table.channels.length

/-- A step that stores a channel, or none. Only with the last handle the slot is emptied. -/
structure Acts (s : State κ) (stored : Option Nat) (t : State κ) : Prop where
  slot : t.slot = stored.or s.slot ∨ (t.handles = 0 ∧ t.slot = none)
  handles : s.handles = 0 → t.handles = 0
  offered : ∀ c ∈ t.offered, c ∈ s.offered ∨ IsNew s t c
  tunes : Tunes s t.table

namespace Acts

variable {stored : Option Nat}

theorem same (hs : t.slot = s.slot) (hh : s.handles = 0 → t.handles = 0) (hc : t.calls = s.calls)
    (hf : front t.table = front s.table) : Acts s none t :=
  ⟨.inl hs, hh, fun c hm => .inl (by rwa [State.offered, hc] at hm), .same hf⟩

theorem congr {u : State κ} (h : Acts s stored t) (hs : u.slot = t.slot)
    (hh : u.handles = t.handles) (hc : u.calls = t.calls)
    (hf : front u.table = front t.table) : Acts s stored u := by
  refine ⟨by rw [hs, hh]; exact h.slot, hh ▸ h.handles, fun c hm => ?_, h.tunes.congr hf⟩
  rw [State.offered, hc] at hm
  rw [IsNew, (front_congr hf).2.1]
  exact h.offered c hm

theorem refl (s : State κ) : Acts s none s := same rfl id rfl rfl

theorem moveTo (h : Acts s stored t) (thread : Thread) {p : Point κ}
    (hp : ∀ c, p.channel? = some c → c ∈ s.offered ∨ IsNew s t c) :
    Acts s stored (t.moveTo thread p) := by
  refine ⟨h.slot, h.handles, fun c hm => ?_, h.tunes⟩
  obtain ⟨call, hm, hc⟩ := List.mem_filterMap.mp hm
  rcases List.mem_append.mp hm with hm | hm
  · exact h.offered c (List.mem_filterMap.mpr ⟨call, (List.mem_filter.mp hm).1, hc⟩)
  · obtain rfl := List.mem_singleton.mp hm
    exact hp c hc

/-- Where a call comes to without a channel nothing is offered. -/
theorem settles (h : Acts s stored t) (thread : Thread) {p : Point κ} (hp : p.channel? = none) :
    Acts s stored (t.moveTo thread p) :=
  h.moveTo thread fun c hc => by simp [hp] at hc

theorem returns (h : Acts s stored t) (thread : Thread) (result : Result) :
    Acts s stored (t.returns thread result) := by
  refine ⟨h.slot, h.handles, fun c hm => ?_, h.tunes⟩
  obtain ⟨call, hm, hc⟩ := List.mem_filterMap.mp hm
  exact h.offered c (List.mem_filterMap.mpr ⟨call, (List.mem_filter.mp hm).1, hc⟩)

theorem note (h : Acts s stored t) (x : Happening) : Acts s stored (t.note x) :=
  ⟨h.slot, h.handles, h.offered, h.tunes⟩

theorem emptied (h : Acts s stored t) (hh : t.handles = 0) :
    Acts s stored { t with slot := none } :=
  ⟨.inr ⟨hh, rfl⟩, h.handles, h.offered, h.tunes⟩

theorem releaseLast (h : Acts s stored t) (hh : t.handles = 0) (thread : Thread) :
    Acts s stored (t.releaseLast thread) := by
  cases thread with
  | caller n => exact h.settles _ rfl
  | worker =>
    have hstopped : Acts s stored
        (({ t with lifecycle := .stopped }.onWorker fun w => { w with flag := false }).onWatch
          Readiness.Watch.abandon) :=
      h.congr rfl rfl rfl rfl
    simp only [State.releaseLast]
    split
    · exact (hstopped.emptied hh).returns .worker _
    · exact (h.emptied hh).returns .worker _

theorem withSlot (s : State κ) (channel : Nat) :
    Acts s (some channel) { s with slot := some channel } :=
  ⟨.inl rfl, id, fun _ hm => .inl hm, .same rfl⟩

theorem received {a : InFlight.Action (Tagged κ) (Job κ)} (hr : a.isReceiving)
    (ha : a.Enabled s.table) : Acts s none { s with table := s.table.after a } :=
  ⟨.inl rfl, id, fun _ hm => .inl hm, .received hr ha rfl⟩

end Acts

theorem acts_begin {call : Call κ} (hh : s.handles ≠ 0) : Acts s none (s.begin thread call) := by
  cases call with
  | submit request =>
    have hcounted : Acts s none { s with submissions := s.submissions + 1 } :=
      .same rfl id rfl rfl
    simp only [begin]
    split
    · exact (hcounted.note _).returns thread _
    · exact hcounted.settles thread rfl
  | monitor =>
    simp only [begin]
    split
    · refine (Acts.received (a := .openChannel) rfl trivial).moveTo thread ?_
      rintro c hc
      obtain rfl : s.table.channels.length = c := Option.some.inj hc
      exact .inr ⟨rfl, by simp [InFlight.State.after]⟩
    · exact (Acts.refl s).returns thread _
  | stop =>
    simp only [begin]
    split
    · exact ((Acts.refl s).note _).returns thread _
    · exact (Acts.refl s).settles thread rfl
  | retain =>
    have hmore : Acts s none { s with handles := s.handles + 1 } :=
      .same rfl (fun h => absurd h hh) rfl rfl
    exact hmore.returns thread _
  | release =>
    have hless : Acts s none { s with handles := s.handles - 1 } :=
      .same rfl (fun h => absurd h hh) rfl rfl
    simp only [begin]
    split
    · next hlast =>
      exact hless.releaseLast hlast thread
    · exact hless.returns thread _
  | _ => exact (Acts.refl s).settles thread rfl

theorem acts_look {op : Operation κ} (hp : s.point? thread = some (.holding op)) (grant : Grant) :
    Acts s op.channel? (s.look thread grant op) := by
  cases op with
  | submit n request =>
    simp only [look]
    split
    · exact (Acts.refl s).settles thread rfl
    · exact ((Acts.refl s).note _).settles thread rfl
  | monitor channel =>
    simp only [look]
    split
    · exact (Acts.withSlot s channel).moveTo thread fun c hc => .inl (mem_offered_of_point? hp hc)
    · exact (Acts.withSlot s channel).settles thread rfl
  | start =>
    have hlaunch : Acts s none s.launch :=
      ⟨.inl rfl, id, fun _ hm => .inl hm, .launched rfl⟩
    simp only [look]
    split
    · exact (Acts.refl s).settles thread rfl
    · rcases htried : s.tryLaunch grant with ⟨result, u⟩
      rcases tryLaunch_cases s grant with hu | hu <;> rw [htried] at hu <;> subst hu
      · exact (Acts.refl _).settles thread rfl
      · exact hlaunch.settles thread rfl
  | stop =>
    have hhalted : Acts s none { s with lifecycle := .stopped } := .same rfl id rfl rfl
    simp only [look]
    split
    · exact hhalted.settles thread rfl
    · exact (Acts.refl s).settles thread rfl
  | _ => exact (Acts.refl s).settles thread rfl

theorem front_enqueue (table : Table κ) (job : Job κ) :
    front (table.after (.enqueue job)) = front table := by
  simp only [InFlight.State.after, InFlight.State.enqueue, Readiness.Watch.enqueue, Channel.send]
  split <;> rfl

theorem acts_send (s : State κ) (thread : Thread) (op : Operation κ) :
    Acts s none (s.send thread op) := by
  have hposted : ∀ job, Acts s none { s with table := s.table.after (.enqueue job) } :=
    fun job => .same rfl id rfl (front_enqueue s.table job)
  cases op with
  | submit n request =>
    simp only [send]
    rcases enqueue_cases s (.dial request) with ⟨heq, -⟩ | ⟨heq, -⟩ <;> rw [heq]
    · exact ((hposted _).note _).settles thread rfl
    · exact (((Acts.refl s).note _).note _).settles thread rfl
  | monitor channel =>
    simp only [send]
    rcases enqueue_cases s (.watchOn channel) with ⟨heq, -⟩ | ⟨heq, -⟩ <;> rw [heq]
    · exact (hposted _).settles thread rfl
    · exact (Acts.refl s).settles thread rfl
  | stop =>
    have hlowered : Acts s none (s.onWorker fun w => { w with flag := false }) :=
      .same rfl id rfl rfl
    simp only [send]
    rcases enqueue_cases s .halt with ⟨heq, -⟩ | ⟨heq, -⟩ <;> rw [heq]
    · exact (hposted _).settles thread rfl
    · exact hlowered.settles thread rfl
  | _ => exact Acts.refl s

theorem acts_proceed (s : State κ) (thread : Thread) (grant : Grant) :
    Acts s (s.stored? (.proceed thread grant)) (s.proceed thread grant) := by
  simp only [proceed, stored?]
  cases hp : s.point? thread with
  | none => exact Acts.refl s
  | some p =>
    cases p with
    | wanting op =>
      exact (Acts.refl s).moveTo thread fun c hc => .inl (mem_offered_of_point? hp hc)
    | holding op => exact acts_look hp grant
    | sending op => exact acts_send s thread op
    | joining =>
      simp only [join]
      split
      · have hdropped : ∀ x, Acts s none (s.note x).dropJobs := fun x => .same rfl id rfl rfl
        exact (hdropped _).settles thread rfl
      · have hdropped : Acts s none s.dropJobs := .same rfl id rfl rfl
        exact hdropped.settles thread rfl
    | leaving access result =>
      simp only [finish]
      split
      · next hh => exact ((Acts.refl s).emptied hh).returns thread _
      · exact (Acts.refl s).returns thread _

theorem acts_giveUp (s : State κ) : Acts s (s.stored? .giveUp) s.giveUp := by
  simp only [giveUp, stored?]
  cases s.point? .worker with
  | none => exact Acts.refl s
  | some p =>
    cases p with
    | wanting op =>
      cases op with
      | submit n request => exact ((Acts.refl s).note _).returns .worker _
      | monitor channel => exact (Acts.withSlot s channel).returns .worker _
      | lifecycle => exact (Acts.refl s).returns .worker _
      | isRunning => exact (Acts.refl s).returns .worker _
      | _ => exact Acts.refl s
    | _ => exact Acts.refl s

theorem front_onDuty (change : Duty κ → Duty κ) {w : Worker} (hw : s.worker = some w) :
    front (s.onDuty change).table = front (change ⟨s.table, w⟩).table := by
  simp only [onDuty, hw]
  split <;> rfl

theorem acts_onDuty (s : State κ) {a : Duty.Action κ}
    (ha : ∀ w, s.worker = some w → Duty.Enabled ⟨s.table, w⟩ a) :
    Acts s none (s.onDuty (·.after a)) := by
  cases hw : s.worker with
  | none =>
    simp only [onDuty, hw]
    exact .refl s
  | some w =>
    have hfront := front_onDuty (s := s) (·.after a) hw
    rw [Duty.after_table] at hfront
    have hrest : (s.onDuty (·.after a)).slot = s.slot ∧
        (s.onDuty (·.after a)).handles = s.handles ∧ (s.onDuty (·.after a)).calls = s.calls := by
      simp only [onDuty, hw]
      split <;> exact ⟨rfl, rfl, rfl⟩
    obtain ⟨hs, hh, hc⟩ := hrest
    cases hb : Duty.deed? ⟨s.table, w⟩ a with
    | none =>
      rw [hb] at hfront
      exact .same hs hh.trans hc hfront
    | some b =>
      rw [hb] at hfront
      exact ⟨.inl hs, hh.trans, fun c hm => .inl (by rwa [offered, hc] at hm),
        .worked hw (ha w hw) hb hfront⟩

theorem acts_after (he : s.Enabled l) : Acts s (s.stored? l) (s.after l) := by
  cases l with
  | begin thread call => exact acts_begin he.2.2.1
  | proceed thread grant => exact acts_proceed s thread grant
  | giveUp => exact acts_giveUp s
  | work answers =>
    have hcan : ∀ w, s.worker = some w → Duty.Enabled ⟨s.table, w⟩ (.work answers) := by
      intro w hw
      simpa [Duty.Enabled, Allows, canWork, hw] using he.2
    exact acts_onDuty s hcan
  | leave panic =>
    have hforeign : ∀ w, s.worker = some w → Duty.Enabled ⟨s.table, w⟩ (.leave panic) := by
      intro w hw
      simpa [Duty.Enabled, isForeign, hw] using he.2.1
    exact acts_onDuty s hforeign
  | becomeReady socket => exact .same rfl id rfl rfl
  | addReceiver channel => exact .received rfl he.2
  | dropReceiver channel => exact .received rfl he.2
  | receive channel => exact .received rfl he.2

theorem Ruled.lawful (h : Ruled s) : Lawful s.table := by
  cases hw : s.worker with
  | none => exact (h.manned.fallow hw).lawful
  | some w => exact (h.manned.sound w hw).kept.lawful

section Tunes

variable {table : Table κ} (h : Tunes s table) (hl : Lawful s.table)
include h hl

theorem Tunes.channels_le : s.table.channels.length ≤ table.channels.length := by
  cases h with
  | same h => rw [(front_congr h).2.1]
  | launched h => rw [(front_congr h).2.1]; exact Nat.le_refl _
  | @received a _ _ h => exact (front_congr h).2.1 ▸ hl.channels_le a
  | @worked _ _ a _ _ _ h => exact (front_congr h).2.1 ▸ hl.channels_le a

theorem Tunes.hasReceivers (ht : HasReceivers table) : HasReceivers s.table := by
  cases h with
  | same h => exact ht.congr (front_congr h).2.1
  | launched h => exact ht.congr (front_congr h).2.1
  | received _ ha h => exact hl.hasReceivers_of_after (fun _ => ha) (ht.congr (front_congr h).2.1)
  | worked _ _ ha h =>
    refine hl.hasReceivers_of_after (fun hr => ?_) (ht.congr (front_congr h).2.1)
    simp [Duty.isReceiving_of_deed? ha] at hr

end Tunes

/-! ### Every channel in use was opened -/

structure Opened (s : State κ) : Prop where
  slot : ∀ c, s.slot = some c → c < s.table.channels.length
  monitor : ∀ c, s.table.monitor = some c → c < s.table.channels.length
  ordered : ∀ c ∈ s.ordered, c < s.table.channels.length
  offered : ∀ c ∈ s.offered, c < s.table.channels.length

theorem Passes.ordered (h : Passes s t) (hc : c ∈ t.ordered) : c ∈ s.ordered ∨ c ∈ s.offered := by
  obtain ⟨job, hm, hj⟩ := List.mem_filterMap.mp hc
  rcases h.mem_jobs hm with hm | ⟨thread, op, hp, hop, -⟩
  · exact .inl (List.mem_filterMap.mpr ⟨job, hm, hj⟩)
  · exact .inr (mem_offered_of_point? hp ((Operation.channel?_of_job hop).trans hj))

theorem Opened.after (h : Opened s) (hr : Ruled s) (he : s.Enabled l) : Opened (s.after l) := by
  have hacts := acts_after he
  have hle := hacts.tunes.channels_le hr.lawful
  refine ⟨fun c hc => ?_, fun c hc => ?_, fun c hc => ?_, fun c hc => ?_⟩
  · rcases hacts.slot with hs | ⟨-, hs⟩
    · rw [hs, Option.or_eq_some_iff] at hc
      refine Nat.lt_of_lt_of_le ?_ hle
      exact hc.elim (fun hst => h.offered c (mem_offered_of_stored? hst)) fun hc => h.slot c hc.2
    · simp [hs] at hc
  · refine Nat.lt_of_lt_of_le ?_ hle
    cases hacts.tunes with
    | same hf => exact h.monitor c ((front_congr hf).1 ▸ hc)
    | launched hf => exact h.slot c ((front_congr hf).1.symm.trans hc)
    | received hr _ hf =>
      rw [(front_congr hf).1, (InFlight.State.monitor_of_isReceiving _ hr).1] at hc
      exact h.monitor c hc
    | @worked w x a hw _ ha hf =>
      rw [(front_congr hf).1] at hc
      by_cases hwatch : ∃ monitor, a = .watchOn monitor
      · obtain ⟨monitor, rfl⟩ := hwatch
        obtain ⟨channel, hch, rfl⟩ := mem_ordered_of_deed? hw ha
        obtain rfl : channel = c := Option.some.inj hc
        exact h.ordered _ hch
      · rcases InFlight.State.monitor_cases s.table fun monitor heq => hwatch ⟨monitor, heq⟩ with
          hsame | hnone
        · exact h.monitor c (hsame ▸ hc)
        · simp [hnone] at hc
  · refine Nat.lt_of_lt_of_le ?_ hle
    exact ((passes_after hr.manned.sound he).ordered hc).elim (h.ordered c) (h.offered c)
  · rcases hacts.offered c hc with hc | ⟨-, hlt⟩
    · exact Nat.lt_of_lt_of_le (h.offered c hc) hle
    · exact hlt

theorem Reachable.opened (hs : Reachable s) : Opened s := by
  induction hs with
  | initial settings => constructor <;> intro c hc <;> cases hc
  | step hs hl ih => exact ih.after hs.ruled hl

end State

end Dialer.Service
