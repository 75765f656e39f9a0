import WalletApi.Runs.Solo
import WalletApi.Safety.Api

/-!
What a redelivered webhook sets going.

A delivery of an event that is not processed ends with adding its job to the
queue. The queue holds one job at most under an id, so the addition has an effect
only if there is none. A job that waits or is worked on is as good as a new one;
a job that has failed is not, but it is still there.
-/

namespace WalletApi

open Concurrency ReadCommitted Machine World Schedule

variable {P : Platform} {config : Config} {cfg cfg' : Machine.Config (walletApi P config)}
  {i : ℕ} {s t : World} {c : Cmd} {ch : Choice}

/-! ### The jobs in the queues -/

/-- The job as it was added. -/
def Job.template (job : Job) : Job := { job with attemptsMade := 0, state := .waiting }

/-- What tells the jobs apart. -/
def Job.key (job : Job) : QueueName × String := (job.queue, job.jobId)

theorem Job.key_of_template {j j' : Job} (h : j.template = j'.template) : j.key = j'.key := by
  show j.template.key = j'.template.key
  rw [h]

/-- The job is of one of the three kinds. -/
def IsJob (job : Job) : Prop :=
  ∃ id, job = completeJob id ∨ job = payoutJob id ∨ job = settleJob id

/-- The job is in its queue and will be worked on. -/
def World.HoldsJob (s : World) (job : Job) : Prop :=
  ∃ j ∈ s.jobs, j.template = job ∧ (j.state = .waiting ∨ j.state = .active)

instance (job : Job) : Decidable (World.HoldsJob cfg.state job) :=
  inferInstanceAs (Decidable (∃ j ∈ World.jobs cfg.state, _))

/-- The queue holds a job with this id that has failed for good. -/
def World.HoldsFailed (s : World) (job : Job) : Prop :=
  ∃ j ∈ s.jobs, j.key = job.key ∧ j.state = .failed

instance (job : Job) : Decidable (World.HoldsFailed cfg.state job) :=
  inferInstanceAs (Decidable (∃ j ∈ World.jobs cfg.state, _))

/-- How a command changes the queues. -/
theorem World.exec_jobs {r : Except Err c.Resp} (h : exec P config i c ch s = some (r, t)) :
    t.jobs = s.jobs ∨ (∃ job, c = .queueAdd job ∧ t.jobs = (s.queueAdd job).jobs) ∨
      (∃ queue jobId f, (∀ j : Job, (f j).template = j.template) ∧
        t.jobs = updateJob queue jobId f s.jobs) ∨
      ∃ p : Job → Bool, t.jobs = s.jobs.filter p := by
  rcases exec_eq_some h with ⟨-, -, -, rfl⟩ | ⟨r', s', hp, -, rfl⟩
  · exact .inl rfl
  cases c with
  | write client data =>
      rcases write_eq_some hp with ⟨rfl, -⟩ | ⟨row, store, -, -, -, -, rfl⟩
      · exact .inl rfl
      · exact .inl rfl
  | lockWalletRow walletId =>
      rcases lockWalletRow_eq_some hp with ⟨-, rfl, -⟩ | ⟨store, -, -, -, rfl⟩
      · exact .inl rfl
      · exact .inl rfl
  | begin =>
      obtain ⟨store, -, he⟩ := Option.map_eq_some_iff.mp hp
      cases he
      exact .inl rfl
  | commit =>
      obtain ⟨store, -, he⟩ := Option.map_eq_some_iff.mp hp
      cases he
      exact .inl rfl
  | takeJob queue =>
      obtain ⟨job, -, he⟩ := Option.map_eq_some_iff.mp hp
      cases he
      exact .inr (.inr (.inl ⟨queue, ch.text, ({ · with state := .active }), fun _ => rfl, rfl⟩))
  | queueAdd job =>
      cases hp
      exact .inr (.inl ⟨job, rfl, rfl⟩)
  | completeJob queue jobId =>
      cases hp
      exact .inr (.inr (.inr ⟨_, rfl⟩))
  | failJob queue jobId =>
      cases hp
      exact .inr (.inr (.inl ⟨queue, jobId, fun job =>
        { job with
          attemptsMade := job.attemptsMade + 1
          state := if job.attemptsMade + 1 < job.attempts then .waiting else .failed },
        fun _ => rfl, rfl⟩))
  | initiatePayment params =>
      simp only [perform] at hp
      split at hp <;> cases hp <;> exact .inl rfl
  | verifyByTxRef txRef =>
      simp only [perform] at hp
      split at hp <;> cases hp <;> exact .inl rfl
  | initiateBankTransfer params =>
      simp only [perform] at hp
      split at hp <;> cases hp <;> exact .inl rfl
  | getBankTransferStatus transferId =>
      simp only [perform] at hp
      split at hp <;> cases hp <;> exact .inl rfl
  | _ => cases hp; exact .inl rfl

/-- No id is there twice in a queue, and every job is of one of the three kinds. -/
structure QueuesOk (jobs : List Job) : Prop where
  unique : (jobs.map Job.key).Nodup
  made : ∀ j ∈ jobs, ∃ id, j.template = completeJob id ∨ j.template = payoutJob id ∨
    j.template = settleJob id

theorem QueuesOk.updateJob {jobs : List Job} (h : QueuesOk jobs) {queue : QueueName}
    {jobId : String} {f : Job → Job} (hf : ∀ j : Job, (f j).template = j.template) :
    QueuesOk (updateJob queue jobId f jobs) := by
  have htemplate (j : Job) :
      (if j.queue = queue ∧ j.jobId = jobId then f j else j).template = j.template := by
    split
    · exact hf j
    · rfl
  constructor
  · have hkeys : (World.updateJob queue jobId f jobs).map Job.key = jobs.map Job.key := by
      rw [World.updateJob, List.map_map]
      exact List.map_congr_left fun j _ => Job.key_of_template (htemplate j)
    rw [hkeys]
    exact h.unique
  · intro j' hj'
    obtain ⟨j, hj, rfl⟩ := List.mem_map.mp hj'
    rw [htemplate]
    exact h.made j hj

/-- Whether a job is added depends on the jobs with its key. -/
theorem World.queueAdd_jobs (s : World) (job : Job) :
    ((∃ j ∈ s.jobs, j.key = job.key) ∧ (s.queueAdd job).jobs = s.jobs) ∨
      ((∀ j ∈ s.jobs, j.key ≠ job.key) ∧ (s.queueAdd job).jobs = s.jobs ++ [job]) := by
  rw [World.queueAdd]
  split
  · rename_i hany
    obtain ⟨j, hj, hkey⟩ := List.any_eq_true.mp hany
    exact .inl ⟨⟨j, hj, Prod.ext_iff.mpr (of_decide_eq_true hkey)⟩, rfl⟩
  · rename_i hnone
    refine .inr ⟨fun j hj hkey => hnone ?_, rfl⟩
    exact List.any_eq_true.mpr ⟨j, hj, decide_eq_true (Prod.ext_iff.mp hkey)⟩

theorem QueuesOk.queueAdd (h : QueuesOk s.jobs) {job : Job} (hjob : IsJob job) :
    QueuesOk (s.queueAdd job).jobs := by
  rcases s.queueAdd_jobs job with ⟨-, hsame⟩ | ⟨hnew, hadded⟩
  · rw [hsame]
    exact h
  · rw [hadded]
    constructor
    · rw [List.map_append, List.nodup_append']
      refine ⟨h.unique, List.nodup_singleton _, ?_⟩
      rintro _ hold hlast
      obtain ⟨j, hj, rfl⟩ := List.mem_map.mp hold
      exact hnew j hj (List.mem_singleton.mp hlast)
    · intro j hj
      rcases List.mem_append.mp hj with hold | hlast
      · exact h.made j hold
      · rw [List.mem_singleton.mp hlast]
        obtain ⟨id, rfl | rfl | rfl⟩ := hjob
        · exact ⟨id, .inl rfl⟩
        · exact ⟨id, .inr (.inl rfl)⟩
        · exact ⟨id, .inr (.inr rfl)⟩

theorem enqueues_job {call : Call} {job : Job} (h : call.enqueues job) : IsJob job := by
  cases call with
  | flutterwaveWebhook verifHash body => exact h.imp fun _ he => .inl he
  | postWithdrawals actor header dto => exact h.imp fun _ he => .inr (.inl he)
  | withdrawalPayoutWorker => exact h.imp fun _ he => .inr (.inr he)
  | _ => exact h.elim

/-- One command keeps the queues in order. -/
theorem QueuesOk.exec {r : Except Err c.Resp} (h : QueuesOk s.jobs)
    (he : World.exec P config i c ch s = some (r, t))
    (hd : ∀ job, c = .queueAdd job → IsJob job) : QueuesOk t.jobs := by
  rcases World.exec_jobs he with hsame | ⟨job, hc, hadded⟩ | ⟨_, _, f, hf, hupdated⟩ |
    ⟨p, hfiltered⟩
  · exact hsame ▸ h
  · exact hadded ▸ h.queueAdd (hd job hc)
  · exact hupdated ▸ h.updateJob hf
  · rw [hfiltered]
    exact ⟨h.unique.sublist (List.filter_sublist.map _),
      fun j hj => h.made j (List.mem_of_mem_filter hj)⟩

/-- The queues are in order in every reachable state. -/
theorem queuesOk_of_reachable (h : Reachable (requests P config) World.initial cfg) :
    QueuesOk (World.jobs cfg.state) := by
  induction h with
  | initial => exact ⟨List.nodup_nil, fun _ hj => absurd hj List.not_mem_nil⟩
  | next a hr hp hn ih =>
      cases a with
      | spawn i call =>
          obtain ⟨-, rfl⟩ := next_spawn_iff.mp hn
          exact ih
      | crash i =>
          obtain ⟨call, p, -, rfl⟩ := next_crash_iff.mp hn
          exact ih
      | step i ch =>
          obtain ⟨call, c, k, r, t, hth, he, rfl⟩ := next_step_iff.mp hn
          refine QueuesOk.exec ih he fun job hc => ?_
          subst hc
          have hjob : call.enqueues job := footprint_of_thread (fun _ h => h) hr hth
          exact enqueues_job hjob

/-! ### The addition of a job -/

/-- The jobs are told apart by their keys. -/
theorem job_eq_of_key {job job' : Job} (h : IsJob job) (h' : IsJob job')
    (hkey : job.key = job'.key) : job = job' := by
  obtain ⟨id, h⟩ := h
  obtain ⟨id', h'⟩ := h'
  have hqueue : job.queue = job'.queue := congrArg Prod.fst hkey
  have hjobId : job.jobId = job'.jobId := congrArg Prod.snd hkey
  rcases h with rfl | rfl | rfl <;> rcases h' with rfl | rfl | rfl <;>
    first
    | exact congrArg completeJob ((String.append_right_inj "transfer-complete-").mp hjobId)
    | exact congrArg payoutJob ((String.append_right_inj "withdrawal-payout-").mp hjobId)
    | exact congrArg settleJob ((String.append_right_inj "withdrawal-settle-").mp hjobId)
    | cases hqueue

/-- After its addition a job is there to be worked on, unless one with its id had
failed. -/
theorem QueuesOk.holdsJob_queueAdd (h : QueuesOk s.jobs) {job : Job} (hjob : IsJob job) :
    (s.queueAdd job).HoldsJob job ↔ ¬s.HoldsFailed job := by
  have htemplate : job.template = job ∧ job.state = .waiting := by
    obtain ⟨id, rfl | rfl | rfl⟩ := hjob <;> exact ⟨rfl, rfl⟩
  rcases s.queueAdd_jobs job with ⟨⟨j, hj, hkey⟩, hsame⟩ | ⟨hnew, hadded⟩
  · have hunique {j' : Job} (hj' : j' ∈ s.jobs) (hkey' : j'.key = job.key) : j' = j :=
      List.inj_on_of_nodup_map h.unique hj' hj (hkey'.trans hkey.symm)
    constructor
    · rintro ⟨j', hj', hmade, hstate⟩ ⟨j'', hj'', hkey'', hfailed⟩
      cases hunique (hsame ▸ hj') (Job.key_of_template (hmade.trans htemplate.1.symm))
      cases hunique hj'' hkey''
      rcases hstate with hs | hs <;> cases hs.symm.trans hfailed
    · intro hfailed
      refine ⟨j, hsame ▸ hj, job_eq_of_key (h.made j hj) hjob hkey, ?_⟩
      cases hs : j.state with
      | waiting => exact .inl rfl
      | active => exact .inr rfl
      | failed => exact absurd ⟨j, hj, hkey, hs⟩ hfailed
  · constructor
    · rintro - ⟨j, hj, hkey, -⟩
      exact hnew j hj hkey
    · intro _
      refine ⟨job, ?_, htemplate.1, .inl htemplate.2⟩
      rw [hadded]
      exact List.mem_append_right _ (.head _)

/-! ### The last step of a delivery -/

/-- A delivery ends by adding the job of its event, or by finding the event
processed. -/
def LastExchange (id : String) (tr : Trace) : Prop :=
  (∃ old, tr = ⟨.queueAdd (completeJob id), .ok ()⟩ :: old) ∨
    ∃ provider eventId event old, event.id = id ∧ event.status = .processed ∧
      tr = ⟨.select .pool (.webhookEventByProviderEventId provider eventId),
        .ok (some event)⟩ :: old

/-- What the exchanges of a delivery look like when it is answered. -/
def deliveryEnds : Call → Response → Trace → Prop
  | .flutterwaveWebhook .., .received id, tr => LastExchange id tr
  | _, _, _ => True

section

variable {A : Assumptions (walletApi P config)} {q : Call} {tr : Trace}

theorem Alone.queueAdd {job : Job} {id : String} {Q : String → Trace → Prop}
    (h : Q id (⟨.queueAdd job, .ok ()⟩ :: tr)) :
    Alone P config A (fun _ _ => True) q i (perform (.queueAdd job) >>= fun _ => pure id) Q tr :=
  .bind (.command trivial fun _ _ _ _ _ _ => .ret h)

theorem handleFlutterwaveWebhook_ends {verifHash : Option String} {body : Json} :
    Alone P config A (fun _ _ => True) q i
      (TransferWebhookService.handleFlutterwaveWebhook config verifHash body) LastExchange tr := by
  refine .bind (.throwIf fun _ => .bind (.orThrow fun eventId _ => ?_))
  refine .bind (.select trivial fun d => ?_)
  cases hfound : Query.run (.webhookEventByProviderEventId .flutterwave eventId) d with
  | some event =>
      show Alone P config A _ q i (if _ then _ else _) _ _
      split
      · exact .queueAdd (.inl ⟨_, rfl⟩)
      · rename_i hstatus
        exact .ret (.inr ⟨_, _, event, _, rfl, not_not.mp hstatus, rfl⟩)
  | none =>
      refine .bind (.bind (.command trivial fun _ _ _ stamp _ _ => ?_))
      exact .command trivial fun _ _ _ created _ _ => .queueAdd (.inl ⟨_, rfl⟩)

theorem deliveries_justified :
    Justified P config (requests P config) (fun _ _ _ => True) deliveryEnds := by
  intro call i hcall
  cases call with
  | flutterwaveWebhook verifHash body => exact .map handleFlutterwaveWebhook_ends
  | _ =>
      refine Alone.within (.all fun _ => trivial) (fun _ _ _ => trivial) fun r _ _ => ?_
      cases r <;> trivial

end

/-- The step by which a delivery is answered. -/
theorem delivery_step (h : Reachable (requests P config) World.initial cfg)
    (hn : Machine.next cfg (.step i ch) = some cfg') {verifHash : Option String} {body : Json}
    {id : String}
    (hend : ended cfg' i = some (.flutterwaveWebhook verifHash body, .ok (.received id))) :
    World.jobs cfg'.state = (World.queueAdd cfg.state (completeJob id)).jobs ∨
      ∃ e ∈ (World.db cfg'.state).webhookEvents, e.id = id ∧ e.status = .processed := by
  have hpermits : (requests P config).Permits cfg (.step i ch) := fun _ _ _ _ => trivial
  have hlast : LastExchange id (own i (World.log cfg'.state)) :=
    (followed_of_reachable deliveries_justified (.next _ h hpermits hn)).running
      (threads_of_ended hend)
  obtain ⟨call, c, k, r, t, -, he, rfl⟩ := next_step_iff.mp hn
  rw [Config.state_set, World.log_exec he, own_cons_self] at hlast
  rcases hlast with ⟨old, hold⟩ | ⟨provider, eventId, event, old, hid, hstatus, hold⟩
  · cases hold
    rcases World.exec_eq_some he with ⟨-, -, hr, -⟩ | ⟨r', s', hp, hr | ⟨-, -, hr⟩, rfl⟩
    · cases hr
    · cases hp
      exact .inl rfl
    · cases hr
  · cases hold
    rcases World.exec_eq_some he with ⟨-, -, hr, -⟩ | ⟨r', s', hp, hr | ⟨-, -, hr⟩, rfl⟩
    · cases hr
    · subst hr
      obtain ⟨hfound, rfl⟩ := Prod.ext_iff.mp (Option.some.inj hp)
      exact .inr ⟨event, List.mem_of_find?_eq_some (Except.ok.inj hfound), hid, hstatus⟩
    · cases hr

/-- A delivery that is answered although its event is not processed leaves a job
for the event in the queue, unless an earlier job for it has failed. -/
theorem redelivery_revives (h : Reachable (requests P config) World.initial cfg)
    (hn : Machine.next cfg (.step i ch) = some cfg') {verifHash : Option String} {body : Json}
    {e : WebhookEvent}
    (hend : ended cfg' i = some (.flutterwaveWebhook verifHash body, .ok (.received e.id)))
    (he : e ∈ (World.db cfg'.state).webhookEvents) (hs : e.status ≠ .processed) :
    World.HoldsJob cfg'.state (completeJob e.id) ↔
      ¬World.HoldsFailed cfg.state (completeJob e.id) := by
  have hpermits : (requests P config).Permits cfg (.step i ch) := fun _ _ _ _ => trivial
  rcases delivery_step h hn hend with hjobs | ⟨e', he', hid, hs'⟩
  · have hholds := (queuesOk_of_reachable h).holdsJob_queueAdd ⟨e.id, .inl rfl⟩
    show (∃ j ∈ World.jobs cfg'.state, _) ↔ _
    rw [hjobs]
    exact hholds
  · have C := api_certified P config (fun _ _ _ _ _ => True) .true
    have hunique : Db.Unique (World.db cfg'.state) := (C.inv (.next _ h hpermits hn)).2.1
    cases hunique.webhookEvent_ext he' he hid
    exact absurd hs' hs

/-! ### Two runs -/

/-- Ada has paid for a funding, and the provider has told so once. -/
def delivered : List (Action (walletApi platform liveConfig)) :=
  register 0 "ada" "u1" "w1" ++ createPin 2 "u1" ++ postTransfer 3 "u1" ++ webhook 4 "u1" "1" "e1"

/-- The worker cannot reach the provider. -/
def failToVerify : List (Action (walletApi platform liveConfig)) :=
  .spawn 5 .transferCompleteWorker :: generate 5 ["transfer-complete-e1"] ++ calm 5 2 ++
    steps 5 [{ fault := .failed }, {}]

/-- The provider tells it again; the last step adds the job. -/
def redeliver : List (Action (walletApi platform liveConfig)) :=
  (webhook 6 "u1" "1" "e1").take 2

/-- The delivery by thread 6 has been answered, and its event is not processed. -/
def Unprocessed (cfg : Machine.Config (walletApi platform liveConfig)) (e : WebhookEvent) : Prop :=
  e ∈ (World.db cfg.state).webhookEvents ∧ e.status ≠ .processed ∧
    ∃ verifHash body, ended cfg 6 = some (.flutterwaveWebhook verifHash body, .ok (.received e.id))

def answersDelivery (id : String) : Option (Call × Except Err Response) → Bool
  | some (.flutterwaveWebhook .., .ok (.received id')) => id' = id
  | _ => false

theorem unprocessed_of_answers {cfg : Machine.Config (walletApi platform liveConfig)}
    {e : WebhookEvent} (he : e ∈ (World.db cfg.state).webhookEvents) (hs : e.status ≠ .processed)
    (h : answersDelivery e.id (ended cfg 6) = true) : Unprocessed cfg e := by
  refine ⟨he, hs, ?_⟩
  unfold answersDelivery at h
  split at h
  · rename_i verifHash body id' hend
    exact ⟨verifHash, body, of_decide_eq_true h ▸ hend⟩
  · cases h

theorem redelivery_revives_schedule :
    ∃ cfg cfg' e, Machine.replayUnder (requests platform liveConfig) (.initial World.initial)
        (delivered ++ redeliver) = some cfg ∧
      Machine.replayUnder (requests platform liveConfig) cfg [.step 6 {}] = some cfg' ∧ Unprocessed cfg' e ∧
      World.HoldsJob cfg'.state (completeJob e.id) := by
  have hrun : (Machine.replayUnder (requests platform liveConfig) (.initial World.initial)
      (delivered ++ redeliver)).any fun cfg =>
        (Machine.replayUnder (requests platform liveConfig) cfg [.step 6 {}]).any fun cfg' =>
          ∃ e ∈ cfg'.state.db.webhookEvents, e.status ≠ .processed ∧
            answersDelivery e.id (ended cfg' 6) = true ∧
            ¬World.HoldsFailed cfg.state (completeJob e.id) := by decide +kernel
  obtain ⟨cfg, hcfg, h⟩ := (Option.any_eq_true ..).mp hrun
  obtain ⟨cfg', hcfg', h⟩ := (Option.any_eq_true ..).mp h
  obtain ⟨e, he, hs, hends, hfailed⟩ := of_decide_eq_true h
  have hunprocessed := unprocessed_of_answers he hs hends
  obtain ⟨-, -, verifHash, body, hend⟩ := id hunprocessed
  exact ⟨cfg, cfg', e, hcfg, hcfg', hunprocessed,
    (redelivery_revives (.replayUnder hcfg) (replayUnder_single hcfg').2 hend he hs).mpr hfailed⟩

/-- Once the job of an event has failed, a redelivery of the event is answered
like any other and sets nothing going. -/
theorem redelivery_after_failure_is_lost :
    ∃ cfg cfg' e, Machine.replayUnder (requests platform liveConfig) (.initial World.initial)
        (delivered ++ failToVerify ++ redeliver) = some cfg ∧
      Machine.replayUnder (requests platform liveConfig) cfg [.step 6 {}] = some cfg' ∧ Unprocessed cfg' e ∧
      ¬World.HoldsJob cfg'.state (completeJob e.id) := by
  have hrun : (Machine.replayUnder (requests platform liveConfig) (.initial World.initial)
      (delivered ++ failToVerify ++ redeliver)).any fun cfg =>
        (Machine.replayUnder (requests platform liveConfig) cfg [.step 6 {}]).any fun cfg' =>
          ∃ e ∈ cfg'.state.db.webhookEvents, e.status ≠ .processed ∧
            answersDelivery e.id (ended cfg' 6) = true ∧
            ¬World.HoldsJob cfg'.state (completeJob e.id) := by decide +kernel
  obtain ⟨cfg, hcfg, h⟩ := (Option.any_eq_true ..).mp hrun
  obtain ⟨cfg', hcfg', h⟩ := (Option.any_eq_true ..).mp h
  obtain ⟨e, he, hs, hends, hlost⟩ := of_decide_eq_true h
  exact ⟨cfg, cfg', e, hcfg, hcfg', unprocessed_of_answers he hs hends, hlost⟩

end WalletApi
