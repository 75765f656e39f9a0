import WalletApi.Safety.Redelivery
import WalletApi.Safety.Twins

/-!
Which deliveries of webhooks are taken for one event.

A delivery looks its event up, and where there is none it generates an id, inserts
the event and adds a job. Each command of a delivery is determined by what the
delivery has exchanged before, so its exchanges show what has been recorded and
under which identity: the id of the event at the provider, and nothing else. Between
the lookup and the insert another delivery of the same event may do the same; the
unique index then turns one of the two away.
-/

namespace WalletApi

open Concurrency ReadCommitted Machine World Schedule TransferWebhookService

variable {P : Platform} {config : Config} {cfg cfg' : Machine.Config (walletApi P config)}
  {i j : ℕ} {s t : World} {c : Cmd} {ch : Choice} {body body' : Json} {id id' eventId : String}
  {hash hash' : Option String} {tr : Trace}

namespace Json

/-- What `requireProviderEventId` makes of a body. -/
def providerEventId (body : Json) : Option String :=
  (TransferWebhookService.eventId ((data body).field? "id")).or
    (TransferWebhookService.eventId (body.field? "id"))

/-- `body.event ?? 'charge.completed'`. -/
def eventType (body : Json) : String := (asStr? (body.field? "event")).getD "charge.completed"

end Json

theorem Db.Unique.webhookEvents_nodup {d : Db} (h : d.Unique) : d.webhookEvents.Nodup :=
  .of_map _ (nodup_map_of_keys Key.webhookEventId h.webhookEvents fun _ => .head _)

theorem WebhookProvider.only (p p' : WebhookProvider) : p = p' := by
  cases p
  cases p'
  rfl

/-- What a lookup by the id at the provider finds. -/
theorem found_of_lookup {d : Db} {provider : WebhookProvider} {e : WebhookEvent}
    (h : some e = (Query.webhookEventByProviderEventId provider eventId).run d) :
    e ∈ d.webhookEvents ∧ e.providerEventId = eventId := by
  have hfind : d.webhookEvents.find? (fun e => e.provider = provider ∧ e.providerEventId = eventId) =
      some e := h.symm
  have hsome := List.find?_some hfind
  exact ⟨List.mem_of_find?_eq_some hfind, (of_decide_eq_true hsome).2⟩

/-! ### What a delivery stores -/

namespace Json

/-- The columns can hold the strings of the value. -/
def Fits (value : Json) : Prop := ∀ text ∈ value.strings, isColumnText text = true

instance (value : Json) : Decidable value.Fits :=
  inferInstanceAs (Decidable (∀ text ∈ value.strings, isColumnText text = true))

theorem mem_fieldStrings {fields : List (String × Json)} {field : String × Json} {text : String}
    (hfield : field ∈ fields) (htext : text ∈ field.2.strings) : text ∈ fieldStrings fields := by
  induction fields with
  | nil => cases hfield
  | cons first rest ih =>
      rw [fieldStrings]
      rcases List.mem_cons.mp hfield with rfl | hrest
      · exact List.mem_cons_of_mem _ (List.mem_append_left _ htext)
      · exact List.mem_cons_of_mem _ (List.mem_append_right _ (ih hrest))

theorem Fits.field {value value' : Json} {name : String} (h : value.Fits)
    (hfield : value.field? name = some value') : value'.Fits := by
  unfold field? at hfield
  split at hfield
  · rename_i fields
    obtain ⟨field, hfind, rfl⟩ := Option.map_eq_some_iff.mp hfield
    intro text htext
    have hmem : text ∈ fieldStrings fields := mem_fieldStrings (List.mem_of_find?_eq_some hfind) htext
    exact h text (by rw [strings]; exact hmem)
  · cases hfield

theorem Fits.asStr {value : Json} {name text : String} (h : value.Fits)
    (htext : asStr? (value.field? name) = some text) : isColumnText text = true := by
  unfold asStr? at htext
  split at htext
  · rename_i s hfield
    cases htext
    exact h.field hfield _ (by rw [strings]; exact .head _)
  · cases htext

end Json

theorem TransferWebhookService.data_fits (h : body.Fits) : (TransferWebhookService.data body).Fits := by
  unfold TransferWebhookService.data
  split
  · cases hdata : body.field? "data" with
    | none => exact fun text htext => by cases htext
    | some value => exact h.field hdata
  · exact fun text htext => by cases htext

theorem TransferWebhookService.eventId_fits {value : Json} {name : String} (h : value.Fits)
    (hid : TransferWebhookService.eventId (value.field? name) = some id) : isColumnText id = true := by
  have hstart : isColumnText "flw-" = true := by decide
  unfold TransferWebhookService.eventId at hid
  split at hid
  · rename_i s hfield
    cases hid
    have htext : Json.asStr? (value.field? name) = some s := by
      rw [hfield]
      rfl
    rw [isColumnText_append, hstart, h.asStr htext]
    rfl
  · rename_i x hfield
    cases hid
    have hnumber : isColumnText (JsNumber.toText x) = true := by
      rw [isColumnText, List.all_eq_true]
      exact fun c hc => decide_eq_true (JsNumber.ne_null_of_mem_toText c hc)
    rw [isColumnText_append, hstart, hnumber]
    rfl
  · cases hid

theorem TransferWebhookService.providerEventId_fits (h : body.Fits)
    (hid : body.providerEventId = some eventId) : isColumnText eventId = true := by
  rcases Option.or_eq_some_iff.mp hid with hid | ⟨-, hid⟩
  · exact eventId_fits (data_fits h) hid
  · exact eventId_fits h hid

theorem TransferWebhookService.eventType_fits (h : body.Fits) : isColumnText body.eventType = true := by
  unfold Json.eventType
  cases htype : Json.asStr? (body.field? "event") with
  | none => decide
  | some text => exact h.asStr htype

theorem TransferWebhookService.reference_fits (h : body.Fits) {reference : String}
    (href : (Json.asStr? ((data body).field? "tx_ref")).or (Json.asStr? ((data body).field? "txRef")) =
      some reference) : isColumnText reference = true := by
  rcases Option.or_eq_some_iff.mp href with href | ⟨-, href⟩
  · exact (data_fits h).asStr href
  · exact (data_fits h).asStr href

/-! ### The exchanges of a delivery -/

/-- The lookup of an event. -/
abbrev lookup (eventId : String) : Cmd :=
  .select .pool (.webhookEventByProviderEventId .flutterwave eventId)

/-- The delivery has looked its event up and found none. -/
def Missed (eventId : String) (tr : Trace) : Prop := tr = [⟨lookup eventId, .ok none⟩]

/-- It has generated an id, and a moment, after that. -/
def Stamped (eventId : String) (stamp : String × ℕ) (tr : Trace) : Prop :=
  ∃ old, Missed eventId old ∧ tr = ⟨.defaults, .ok stamp⟩ :: old

/-- The delivery knows the event: it has found it, or inserted it. -/
def Knows (e : WebhookEvent) (tr : Trace) : Prop :=
  tr = [⟨lookup e.providerEventId, .ok (some e)⟩] ∨
    ∃ stamp old, Stamped e.providerEventId stamp old ∧ stamp.1 = e.id ∧
      tr = ⟨.write .pool (.createWebhookEvent e), .ok e⟩ :: old

/-- What a delivery has exchanged before each of its commands. -/
def deliveryDemand (body : Json) (tr : Trace) : Cmd → Prop
  | .select .pool (.webhookEventByProviderEventId _ eventId) =>
      body.providerEventId = some eventId ∧ tr = []
  | .defaults => ∃ eventId, body.providerEventId = some eventId ∧ Missed eventId tr
  | .write .pool (.createWebhookEvent row) => body.providerEventId = some row.providerEventId ∧
      (∃ stamp, Stamped row.providerEventId stamp tr ∧ stamp.1 = row.id) ∧
      (body.Fits → isColumnText row.id = true → (Write.createWebhookEvent row).storable = true)
  | .queueAdd job => ∃ e, body.providerEventId = some e.providerEventId ∧ Knows e tr ∧
      job = completeJob e.id
  | _ => False

/-- What it has exchanged when it is answered. -/
def Accepted (body : Json) (id : String) (tr : Trace) : Prop :=
  ∃ e old, body.providerEventId = some e.providerEventId ∧ e.id = id ∧ Knows e old ∧
    (tr = old ∨ tr = ⟨.queueAdd (completeJob id), .ok ()⟩ :: old)

/-- Why it may have failed. -/
def TurnedAway (config : Config) (hash : Option String) (body : Json) (tr : Trace) : Prop :=
  verifySignature config hash = false ∨ body.providerEventId = none ∨
    ∃ x ∈ tr, ∃ e, x.result = .error e

section Programs

variable {A : Assumptions (walletApi P config)} {q : Call} {α : Type}

theorem wp_addJob {e : WebhookEvent} (hid : body.providerEventId = some e.providerEventId)
    (hknows : Knows e tr) :
    (solo A i (deliveryDemand body)).wp q i
      (perform (.queueAdd (completeJob e.id)) >>= fun _ => pure e.id) (Accepted body)
      (fun _ => TurnedAway config hash body) tr := by
  refine RelyGuarantee.wp_bind (Solo.wp_perform ⟨e, hid, hknows, rfl⟩ fun ch s r t _ he => ?_)
  cases r with
  | error err => exact .inr (.inr ⟨_, .head _, err, rfl⟩)
  | ok u => exact ⟨e, tr, hid, rfl, hknows, .inr rfl⟩

theorem wp_handleExisting {e : WebhookEvent} (hid : body.providerEventId = some e.providerEventId)
    (hknows : Knows e tr) :
    (solo A i (deliveryDemand body)).wp q i (handleExisting e) (Accepted body)
      (fun _ => TurnedAway config hash body) tr := by
  unfold handleExisting
  by_cases hstatus : e.status ≠ .processed
  · rw [if_pos hstatus]
    exact wp_addJob hid hknows
  · rw [if_neg hstatus]
    exact ⟨e, tr, hid, rfl, hknows, .inl rfl⟩

theorem wp_create {data : WebhookEventRepository.CreateWebhookEventData}
    (hid : body.providerEventId = some data.providerEventId)
    (htexts : body.Fits → ∀ text ∈ [data.eventType, data.providerEventId] ++ data.reference.toList ++
      data.payload.strings, isColumnText text = true)
    (hmissed : Missed data.providerEventId tr) :
    (solo A i (deliveryDemand body)).wp q i
      (do
        let created ← WebhookEventRepository.create data
        let _ ← perform (.queueAdd (completeJob created.id))
        return created.id)
      (Accepted body) (fun _ => TurnedAway config hash body) tr := by
  refine RelyGuarantee.wp_bind (RelyGuarantee.wp_bind ?_)
  refine Solo.wp_perform ⟨_, hid, hmissed⟩ fun ch s r t _ _ => ?_
  cases r with
  | error err => exact .inr (.inr ⟨_, .head _, err, rfl⟩)
  | ok stamp =>
      have hstamped : Stamped data.providerEventId stamp (⟨.defaults, .ok stamp⟩ :: tr) :=
        ⟨tr, hmissed, rfl⟩
      refine Solo.wp_perform ⟨hid, ⟨stamp, hstamped, rfl⟩, fun hbody hfits => ?_⟩
        fun ch s r t _ he => ?_
      · exact Write.storable_iff.mpr ⟨rfl, List.forall_mem_cons.mpr ⟨hfits, htexts hbody⟩⟩
      cases r with
      | error err => exact .inr (.inr ⟨_, .head _, err, rfl⟩)
      | ok created =>
          cases (World.write_of_exec he).1
          exact wp_addJob hid (.inr ⟨stamp, _, hstamped, rfl, rfl⟩)

theorem wp_handleFlutterwaveWebhook :
    (solo A i (deliveryDemand body)).wp q i (handleFlutterwaveWebhook config hash body)
      (Accepted body) (fun _ => TurnedAway config hash body) [] := by
  refine RelyGuarantee.wp_bind ?_
  rw [throwIf]
  split
  · rename_i hsignature
    exact .inl hsignature
  refine RelyGuarantee.wp_ret (RelyGuarantee.wp_bind ?_)
  show (solo A i (deliveryDemand body)).wp q i (orThrow body.providerEventId _) _ _ []
  cases hid : body.providerEventId with
  | none => exact .inr (.inl hid)
  | some eventId =>
      refine RelyGuarantee.wp_ret (RelyGuarantee.wp_bind ?_)
      refine Solo.wp_perform ⟨hid, rfl⟩ fun ch s r t _ he => ?_
      cases r with
      | error err => exact .inr (.inr ⟨_, .head _, err, rfl⟩)
      | ok found =>
          cases found with
          | some e =>
              obtain ⟨-, hfound⟩ := found_of_lookup (World.select_of_exec he)
              subst hfound
              exact wp_handleExisting hid (.inl rfl)
          | none =>
              refine wp_create hid (fun hbody text htext => ?_) rfl
              -- The texts are those of the body, but for the default of the type.
              rcases List.mem_append.mp htext with htext | hpayload
              · rcases List.mem_append.mp htext with htext | href
                · rcases List.mem_cons.mp htext with rfl | htext
                  · exact eventType_fits hbody
                  · rw [List.mem_singleton.mp htext]
                    exact providerEventId_fits hbody hid
                · exact reference_fits hbody (Option.mem_toList.mp href)
              · exact hbody text hpayload

end Programs

/-- What each call has exchanged before a command. -/
def deliveryDemands : Call → Trace → Cmd → Prop
  | .flutterwaveWebhook _ body => deliveryDemand body
  | _ => fun _ _ => True

def deliveryAnswers : Call → Response → Trace → Prop
  | .flutterwaveWebhook _ body, .received id, tr => Accepted body id tr
  | .flutterwaveWebhook .., _, _ => False
  | _, _, _ => True

def deliveryFailures (config : Config) : Call → Err → Trace → Prop
  | .flutterwaveWebhook hash body, _, tr => TurnedAway config hash body tr
  | _, _, _ => True

variable {A : Assumptions (walletApi P config)} {A' : Call → ℕ → Cmd → Choice → World → Prop}

theorem deliveries_followed (h : Reachable A World.initial cfg) :
    Followed (recording P config) A deliveryDemands deliveryAnswers (deliveryFailures config)
      cfg := by
  refine .of_reachable rfl (fun {call i} _ => ?_) h
  cases call with
  | flutterwaveWebhook hash body =>
      let received (id : String) : Program Response := .ret (.received id)
      exact RelyGuarantee.wp_bind (f := received) wp_handleFlutterwaveWebhook
  | _ =>
      refine Solo.wp_within (.all fun _ => trivial) (fun _ _ _ => trivial) (fun r _ _ => ?_)
        fun _ _ _ => trivial
      cases r <;> trivial

/-! ### What is recorded -/

/-- The event that an exchange of a delivery shows is in the table from then on. -/
theorem stored_of_log (h : Reachable A World.initial cfg) {x : Exchange signature}
    {e : WebhookEvent} (hx : (i, x) ∈ World.log cfg.state)
    (hshows : (∃ eventId, x = ⟨lookup eventId, .ok (some e)⟩) ∨
      x = ⟨.write .pool (.createWebhookEvent e), .ok e⟩) :
    ∃ e' ∈ (World.db cfg.state).webhookEvents, e'.core = e.core := by
  obtain ⟨ev, hev, -, hexchange⟩ := exists_event_of_log hx
  obtain ⟨es, hs, hsplit⟩ := List.append_of_mem hev
  obtain ⟨cfg₀, cfg₁, hhappened, hrun, -⟩ := happened_of_reachable h hsplit
  have hstored : e ∈ (World.db cfg₁.state).webhookEvents := by
    obtain ⟨call, ch, -, he⟩ := hhappened.exec
    obtain ⟨pid, cmd, result, took⟩ := ev
    rcases hshows with ⟨eventId, rfl⟩ | rfl
    · cases hexchange
      obtain ⟨hmem, -⟩ := found_of_lookup (World.select_of_exec he)
      have hsame : World.db cfg₁.state = World.db cfg₀.state := (exec_quiet rfl he).db
      exact hsame ▸ hmem
    · cases hexchange
      rw [(World.write_of_exec he).2]
      exact List.mem_append_right _ (.head _)
  exact (grows_of_run hrun).webhookEvents e hstored

/-- A delivery that has been answered has recorded the event of its body. -/
theorem recorded (h : Reachable A World.initial cfg)
    (hend : ended cfg i = some (.flutterwaveWebhook hash body, .ok (.received id))) :
    ∃ e ∈ (World.db cfg.state).webhookEvents, e.id = id ∧
      body.providerEventId = some e.providerEventId := by
  have F := deliveries_followed h
  have hanswer : Accepted body id (own i (World.log cfg.state)) := F.running (threads_of_ended hend)
  obtain ⟨e, old, hevent, hid, hknows, htr⟩ := hanswer
  have hmem {x : Exchange signature} (hx : x ∈ old) : (i, x) ∈ World.log cfg.state := by
    refine mem_own.mp ?_
    rcases htr with heq | heq
    · rw [heq]
      exact hx
    · rw [heq]
      exact .tail _ hx
  obtain ⟨e', he', hcore⟩ : ∃ e' ∈ (World.db cfg.state).webhookEvents, e'.core = e.core := by
    rcases hknows with rfl | ⟨stamp, old', -, -, rfl⟩
    · exact stored_of_log h (hmem (.head _)) (.inl ⟨_, rfl⟩)
    · exact stored_of_log h (hmem (.head _)) (.inr rfl)
  have hid' : e'.core.id = e.core.id := by rw [hcore]
  have hevent' : e'.core.providerEventId = e.core.providerEventId := by rw [hcore]
  exact ⟨e', he', hid'.trans hid, hevent.trans (congrArg some hevent'.symm)⟩

/-- The deliveries have been recorded as two different events. -/
def RecordedApart (s : World) (id id' : String) : Prop :=
  ∃ e ∈ s.db.webhookEvents, ∃ e' ∈ s.db.webhookEvents, e.id = id ∧ e'.id = id' ∧ e ≠ e'

/-- Two deliveries are recorded as two events if and only if the ids of their events
at the provider differ. -/
theorem recordedApart_iff (h : Reachable (requests P config) World.initial cfg)
    (h₁ : ended cfg i = some (.flutterwaveWebhook hash body, .ok (.received id)))
    (h₂ : ended cfg j = some (.flutterwaveWebhook hash' body', .ok (.received id'))) :
    RecordedApart cfg.state id id' ↔ body.providerEventId ≠ body'.providerEventId := by
  have C := api_certified P config (fun _ _ _ _ _ => True) .true
  have hunique : Db.Unique (World.db cfg.state) := (C.inv h).2.1
  obtain ⟨e, he, rfl, hevent⟩ := recorded h h₁
  obtain ⟨e', he', rfl, hevent'⟩ := recorded h h₂
  rw [hevent, hevent']
  constructor
  · rintro ⟨a, ha, b, hb, hida, hidb, hne⟩ heq
    cases hunique.webhookEvent_ext ha he hida
    cases hunique.webhookEvent_ext hb he' hidb
    exact hne (hunique.webhookEvent_of_providerEventId ha hb (Option.some.inj heq))
  · intro hne
    exact ⟨e, he, e', he', rfl, rfl, fun heq => hne (by rw [heq])⟩

/-- The provider tells of an event with this id, of this type and for this reference. -/
def notice (eventType id txRef : String) : Json :=
  .obj [("event", .str eventType), ("data", .obj [("id", .str id), ("tx_ref", .str txRef)])]

/-- A delivery with a valid signature. -/
def delivery (body : Json) : Call := .flutterwaveWebhook (some "mock-webhook-secret") body

/-- A whole delivery of an event that is not there. -/
def deliver (i : ℕ) (body : Json) (id : String) : List (Action (walletApi P config)) :=
  .spawn i (delivery body) :: calm i 1 ++ generate i [id] ++
    calm i 2

/-- The call is a delivery of the notice, and it has ended with the result. -/
def endsNotice (eventType eventId txRef : String) (r : Except Err Response) :
    Option (Call × Except Err Response) → Bool
  | some (.flutterwaveWebhook (some hash)
        (.obj [(n₁, .str a), (n₂, .obj [(n₃, .str b), (n₄, .str c)])]), r') =>
      [hash, n₁, a, n₂, n₃, b, n₄, c] =
          ["mock-webhook-secret", "event", eventType, "data", "id", eventId, "tx_ref", txRef] ∧
        r' = r
  | _ => false

theorem ended_of_endsNotice {eventType eventId txRef : String} {r : Except Err Response}
    (h : endsNotice eventType eventId txRef r (ended cfg i) = true) :
    ended cfg i = some (delivery (notice eventType eventId txRef), r) := by
  unfold endsNotice at h
  split at h
  · rename_i hash n₁ a n₂ n₃ b n₄ c r' hend
    obtain ⟨hall, rfl⟩ := of_decide_eq_true h
    simp only [List.cons.injEq, and_true] at hall
    obtain ⟨rfl, rfl, rfl, rfl, rfl, rfl, rfl, rfl⟩ := hall
    exact hend
  · cases h

/-- Two deliveries, one after the other. -/
def twoNotices (first second : Json) (actions : List (Action (walletApi platform mockConfig))) :
    List (Action (walletApi platform mockConfig)) :=
  deliver 0 first "e1" ++ .spawn 1 (delivery second) :: actions

theorem recordedApart_iff_schedule :
    ∃ cfg, Machine.replayUnder (requests platform mockConfig) (.initial World.initial)
        (twoNotices (notice "transfer.completed" "1" "wd_1") (notice "charge.completed" "2" "fund_1")
          (calm 1 1 ++ generate 1 ["e2"] ++ calm 1 2)) = some cfg ∧
      RecordedApart cfg.state "e1" "e2" := by
  have hrun : (Machine.replayUnder (requests platform mockConfig) (.initial World.initial)
      (twoNotices (notice "transfer.completed" "1" "wd_1") (notice "charge.completed" "2" "fund_1")
        (calm 1 1 ++ generate 1 ["e2"] ++ calm 1 2))).any fun cfg =>
      endsNotice "transfer.completed" "1" "wd_1" (.ok (.received "e1")) (ended cfg 0) &&
        endsNotice "charge.completed" "2" "fund_1" (.ok (.received "e2")) (ended cfg 1) := by decide +kernel
  obtain ⟨cfg, hcfg, h⟩ := (Option.any_eq_true ..).mp hrun
  obtain ⟨h₁, h₂⟩ := (Bool.and_eq_true _ _).mp h
  exact ⟨cfg, hcfg, (recordedApart_iff (.replayUnder hcfg) (ended_of_endsNotice h₁)
    (ended_of_endsNotice h₂)).mpr (by decide)⟩

/-- The notice of a payment is taken for the notice of a bank transfer with the same
number. -/
theorem payment_taken_for_transfer :
    ∃ cfg, Machine.replayUnder (requests platform mockConfig) (.initial World.initial)
        (twoNotices (notice "transfer.completed" "1" "wd_1") (notice "charge.completed" "1" "fund_1")
          (calm 1 2)) = some cfg ∧
      ended cfg 0 = some (delivery (notice "transfer.completed" "1" "wd_1"),
        .ok (.received "e1")) ∧
      ended cfg 1 = some (delivery (notice "charge.completed" "1" "fund_1"),
        .ok (.received "e1")) ∧
      (notice "transfer.completed" "1" "wd_1").eventType ≠
        (notice "charge.completed" "1" "fund_1").eventType ∧
      ¬RecordedApart cfg.state "e1" "e1" := by
  have hrun : (Machine.replayUnder (requests platform mockConfig) (.initial World.initial)
      (twoNotices (notice "transfer.completed" "1" "wd_1") (notice "charge.completed" "1" "fund_1")
        (calm 1 2))).any fun cfg =>
      endsNotice "transfer.completed" "1" "wd_1" (.ok (.received "e1")) (ended cfg 0) &&
        endsNotice "charge.completed" "1" "fund_1" (.ok (.received "e1")) (ended cfg 1) &&
        (World.db cfg.state).webhookEvents.length = 1 := by decide +kernel
  obtain ⟨cfg, hcfg, h⟩ := (Option.any_eq_true ..).mp hrun
  obtain ⟨h, hone⟩ := (Bool.and_eq_true _ _).mp h
  obtain ⟨h₁, h₂⟩ := (Bool.and_eq_true _ _).mp h
  refine ⟨cfg, hcfg, ended_of_endsNotice h₁, ended_of_endsNotice h₂, by decide, ?_⟩
  rintro ⟨e, he, e', he', -, -, hne⟩
  obtain ⟨a, ha⟩ := List.length_eq_one_iff.mp (of_decide_eq_true hone)
  have heq : (World.db cfg.state).webhookEvents = [a] := ha
  rw [heq] at he he'
  exact hne ((List.mem_singleton.mp he).trans (List.mem_singleton.mp he').symm)

/-! ### Who has inserted an event -/

/-- Every event of the table has been inserted by a write of the log. -/
theorem inserted_of_reachable (hA : ∀ call, A.admits call → Call.isApi call = true)
    (h : Reachable A World.initial cfg) : ∀ e ∈ (World.db cfg.state).webhookEvents,
      ∃ (j : ℕ) (row : WebhookEvent) (r : Except Err WebhookEvent),
        (j, ⟨.write .pool (.createWebhookEvent row), r⟩) ∈ World.log cfg.state ∧
          row.core = e.core := by
  induction h with
  | initial => exact fun e he => absurd he List.not_mem_nil
  | @next cfg cfg' a hr hp hn ih =>
      cases a with
      | spawn i call =>
          obtain ⟨-, rfl⟩ := next_spawn_iff.mp hn
          exact ih
      | crash i =>
          obtain ⟨call, p, -, rfl⟩ := next_crash_iff.mp hn
          exact ih
      | step i ch =>
          obtain ⟨call, c, k, r, t, hth, he, rfl⟩ := next_step_iff.mp hn
          intro e hmem
          have later (hold : ∃ e₀ ∈ (World.db cfg.state).webhookEvents, e₀.core = e.core) :
              ∃ (j : ℕ) (row : WebhookEvent) (r : Except Err WebhookEvent),
                (j, ⟨.write .pool (.createWebhookEvent row), r⟩) ∈ World.log t ∧
                  row.core = e.core := by
            obtain ⟨e₀, he₀, hcore₀⟩ := hold
            obtain ⟨j, row, r, hlog, hcore⟩ := ih e₀ he₀
            exact ⟨j, row, r, World.log_exec he ▸ .tail _ hlog, hcore.trans hcore₀⟩
          rcases World.exec_db he with hsame | ⟨w, rfl, hwrote, -⟩ | ⟨-, ws, hopen, hcommit⟩
          · exact later ⟨e, hsame ▸ hmem, rfl⟩
          · rw [Config.state_set, hwrote] at hmem
            rcases Write.webhookEvent_of_apply hmem with hold | rfl |
              ⟨e₀, he₀, status, processedAt, -, rfl⟩
            · exact later ⟨e, hold, rfl⟩
            · exact ⟨i, e, r, World.log_exec he ▸ .head _, rfl⟩
            · exact later ⟨e₀, he₀, rfl⟩
          · refine later ⟨e, ?_, rfl⟩
            rw [Config.state_set, hcommit, (tables_of_commit hA hr hopen _).2.2.2] at hmem
            exact hmem

/-- The insert of an event is the doing of a delivery, which has looked the event up
in vain and generated the id before. -/
theorem stamped_of_log (hA : ∀ call, A.admits call → Call.isApi call = true)
    (h : Reachable A World.initial cfg) {row : WebhookEvent} {r : Except Err WebhookEvent}
    (hlog : (j, ⟨.write .pool (.createWebhookEvent row), r⟩) ∈ World.log cfg.state) :
    (∃ moment, (j, ⟨.defaults, .ok (row.id, moment)⟩) ∈ World.log cfg.state) ∧
      (j, ⟨lookup row.providerEventId, .ok none⟩) ∈ World.log cfg.state := by
  have F := deliveries_followed h
  obtain ⟨es, rest, hsplit⟩ := List.append_of_mem hlog
  obtain ⟨th, hth, hdemand⟩ := F.logged hsplit
  -- Only a delivery inserts events.
  have hcall : ∃ hash body, th.call = .flutterwaveWebhook hash body := by
    obtain ⟨e, he, rfl, hexchange⟩ := exists_event_of_log hlog
    obtain ⟨pid, cmd, result, took⟩ := e
    cases hexchange
    obtain ⟨th', hth', hwrites⟩ := (issues_of_reachable hA h).1 _ he
    cases hth.symm.trans hth'
    have hfoot : th.call.writes .pool (.createWebhookEvent row) := hwrites
    cases hcall : th.call with
    | flutterwaveWebhook hash body => exact ⟨hash, body, rfl⟩
    | _ =>
        rw [hcall] at hfoot
        exact hfoot.elim
  obtain ⟨hash, body, hcall⟩ := hcall
  rw [hcall] at hdemand
  obtain ⟨-, ⟨⟨stampId, moment⟩, ⟨old, hmissed, htr⟩, hid⟩, -⟩ := hdemand
  cases hid
  have hmem {x : Exchange signature} (hx : x ∈ own j rest) : (j, x) ∈ World.log cfg.state := by
    rw [hsplit]
    exact List.mem_append_right _ (.tail _ (mem_own.mp hx))
  have hmissed' : old = [⟨lookup row.providerEventId, .ok none⟩] := hmissed
  subst hmissed'
  exact ⟨⟨moment, hmem (htr.symm ▸ .head _)⟩, hmem (htr.symm ▸ .tail _ (.head _))⟩

/-- So every event of the table has its maker. -/
theorem maker (hA : ∀ call, A.admits call → Call.isApi call = true)
    (h : Reachable A World.initial cfg) {e : WebhookEvent}
    (he : e ∈ (World.db cfg.state).webhookEvents) :
    ∃ j, (∃ (row : WebhookEvent) (r : Except Err WebhookEvent),
        (j, ⟨.write .pool (.createWebhookEvent row), r⟩) ∈ World.log cfg.state) ∧
      (∃ moment, (j, ⟨.defaults, .ok (e.id, moment)⟩) ∈ World.log cfg.state) ∧
      (j, ⟨lookup e.providerEventId, .ok none⟩) ∈ World.log cfg.state := by
  obtain ⟨j, row, r, hlog, hcore⟩ := inserted_of_reachable hA h e he
  obtain ⟨hgenerated, hmissed⟩ := stamped_of_log hA h hlog
  have hid : row.core.id = e.core.id := by rw [hcore]
  have hevent : row.core.providerEventId = e.core.providerEventId := by rw [hcore]
  have hid' : row.id = e.id := hid
  have hevent' : row.providerEventId = e.providerEventId := hevent
  exact ⟨j, ⟨row, r, hlog⟩, hid' ▸ hgenerated, hevent' ▸ hmissed⟩

/-! ### Deliveries in turn -/

/-- The event that a lookup has not found. -/
def Event.missed (e : Event) : Option String :=
  match e with
  | ⟨_, .select .pool (.webhookEventByProviderEventId _ eventId), .ok none, _⟩ => some eventId
  | _ => none

/-- The id that has been generated for a row. -/
def Event.generated (e : Event) : Option String :=
  match e with
  | ⟨_, .defaults, .ok stamp, _⟩ => some stamp.1
  | _ => none

namespace World

def missed (s : World) : List String := s.history.filterMap Event.missed

def generated (s : World) : List String := s.history.filterMap Event.generated

end World

/-- A generated id has not been generated before, and a column can hold it. -/
def freshId (c : Cmd) (ch : Choice) (s : World) : Bool :=
  match c with
  | .defaults => ch.text ∉ s.generated ∧ isColumnText ch.text = true
  | _ => true

/-- An event that some delivery has not found is looked up again only when it is there. -/
def looksUpInTurn (c : Cmd) (s : World) : Bool :=
  match c with
  | .select .pool (.webhookEventByProviderEventId _ eventId) =>
      eventId ∉ s.missed || s.db.webhookEvents.any (·.providerEventId = eventId)
  | _ => true

/-- Nothing fails, and no id is generated twice. -/
def Smooth (_ : Call) (_ : ℕ) (c : Cmd) (ch : Choice) (s : World) : Prop :=
  ch.fault = .none ∧ freshId c ch s = true

/-- In addition, deliveries of one event look it up in turn. -/
def InTurn (call : Call) (i : ℕ) (c : Cmd) (ch : Choice) (s : World) : Prop :=
  Smooth call i c ch s ∧ looksUpInTurn c s = true

instance : ∀ call i c ch s, Decidable (Smooth call i c ch s) :=
  fun _ _ c ch s => inferInstanceAs (Decidable (ch.fault = .none ∧ freshId c ch s = true))

instance : ∀ call i c ch s, Decidable (InTurn call i c ch s) :=
  fun call i c ch s => inferInstanceAs (Decidable (Smooth call i c ch s ∧ looksUpInTurn c s = true))

/-- Two entries of which a list without repetitions shows the same. -/
theorem eq_of_filterMap_nodup {α β : Type} {f : α → Option β} {l : List α} {a a' : α} {b : β}
    (h : (l.filterMap f).Nodup) (ha : a ∈ l) (ha' : a' ∈ l) (hb : f a = some b)
    (hb' : f a' = some b) : a = a' := by
  induction l with
  | nil => cases ha
  | cons x l ih =>
      have notLater {y : α} (hy : y ∈ l) (hx : f x = some b) (hyb : f y = some b) : False := by
        rw [List.filterMap_cons_some hx, List.nodup_cons] at h
        exact h.1 (List.mem_filterMap.mpr ⟨y, hy, hyb⟩)
      rcases List.mem_cons.mp ha with rfl | hold
      · rcases List.mem_cons.mp ha' with rfl | hold'
        · rfl
        · exact (notLater hold' hb hb').elim
      · rcases List.mem_cons.mp ha' with rfl | hold'
        · exact (notLater hold hb' hb).elim
        · refine ih ?_ hold hold'
          cases hx : f x with
          | none => rwa [List.filterMap_cons_none hx] at h
          | some y =>
              rw [List.filterMap_cons_some hx] at h
              exact (List.nodup_cons.mp h).2

/-- No id is generated twice, columns can hold the ids, and no two deliveries miss one
event. -/
structure World.Ordered (s : World) : Prop where
  generated : s.generated.Nodup
  fits : ∀ id ∈ s.generated, isColumnText id = true
  missed : s.missed.Nodup

/-- The id that a command generates is a fresh one. -/
theorem fresh_of_generated {r : Except Err c.Resp} {took : Bool} {id : String}
    (hgen : Event.generated ⟨i, c, r, took⟩ = some id) (hfresh : freshId c ch s = true)
    (h : World.exec P config i c ch s = some (r, t)) : id ∉ s.generated ∧ isColumnText id = true := by
  unfold Event.generated at hgen
  split at hgen
  · rename_i heq
    cases heq
    cases hgen
    obtain ⟨s', hp, -⟩ := exec_infallible rfl h
    cases hp
    exact of_decide_eq_true hfresh
  · cases hgen

theorem World.Ordered.exec {r : Except Err c.Resp} (hs : s.Ordered) (hfresh : freshId c ch s = true)
    (hturn : looksUpInTurn c s = true) (h : World.exec P config i c ch s = some (r, t)) :
    t.Ordered := by
  obtain ⟨took, hh⟩ := World.exec_history h
  have hgenerated : t.generated.Nodup ∧ ∀ id ∈ t.generated, isColumnText id = true := by
    show (t.history.filterMap Event.generated).Nodup ∧ ∀ id ∈ t.history.filterMap Event.generated, _
    rw [hh]
    cases hgen : Event.generated ⟨i, c, r, took⟩ with
    | none =>
        rw [List.filterMap_cons_none hgen]
        exact ⟨hs.generated, hs.fits⟩
    | some id =>
        obtain ⟨hnew, hfits⟩ := fresh_of_generated hgen hfresh h
        rw [List.filterMap_cons_some hgen]
        exact ⟨List.nodup_cons.mpr ⟨hnew, hs.generated⟩, List.forall_mem_cons.mpr ⟨hfits, hs.fits⟩⟩
  refine ⟨hgenerated.1, hgenerated.2, ?_⟩
  · show (t.history.filterMap Event.missed).Nodup
    rw [hh]
    cases hmiss : Event.missed ⟨i, c, r, took⟩ with
    | none =>
        rw [List.filterMap_cons_none hmiss]
        exact hs.missed
    | some eventId =>
        rw [List.filterMap_cons_some hmiss]
        refine List.nodup_cons.mpr ⟨?_, hs.missed⟩
        unfold Event.missed at hmiss
        split at hmiss
        · rename_i heq
          cases heq
          cases hmiss
          have hnone := World.select_of_exec h
          rcases (Bool.or_eq_true _ _).mp hturn with hnew | hstored
          · exact of_decide_eq_true hnew
          · -- Had the event been there, the lookup would have found it.
            obtain ⟨e, he, hid⟩ := List.any_eq_true.mp hstored
            refine absurd (List.find?_eq_none.mp hnone.symm e he) (not_not.mpr (decide_eq_true ?_))
            exact ⟨WebhookProvider.only _ _, of_decide_eq_true hid⟩
        · cases hmiss

theorem ordered_of_reachable (h : Reachable (api P config InTurn) World.initial cfg) :
    World.Ordered cfg.state := by
  refine h.invariant (I := World.Ordered) 
    ⟨List.nodup_nil, fun _ hid => absurd hid List.not_mem_nil, List.nodup_nil⟩ ?_
    fun hs => ⟨hs.generated, hs.fits, hs.missed⟩
  intro call i c ch s r t ha he hs
  exact hs.exec ha.1.2 ha.2 he

theorem World.Ordered.pid_of_generated (hs : s.Ordered) {id : String} {m m' : ℕ}
    (h : (i, ⟨.defaults, .ok (id, m)⟩) ∈ s.log) (h' : (j, ⟨.defaults, .ok (id, m')⟩) ∈ s.log) :
    i = j := by
  obtain ⟨⟨_, _, _, took⟩, he, rfl, heq⟩ := exists_event_of_log h
  obtain ⟨⟨_, _, _, took'⟩, he', rfl, heq'⟩ := exists_event_of_log h'
  cases heq
  cases heq'
  exact congrArg Event.pid (eq_of_filterMap_nodup hs.generated he he' rfl rfl)

theorem World.Ordered.pid_of_missed (hs : s.Ordered)
    (h : (i, ⟨lookup eventId, .ok none⟩) ∈ s.log) (h' : (j, ⟨lookup eventId, .ok none⟩) ∈ s.log) :
    i = j := by
  obtain ⟨⟨_, _, _, took⟩, he, rfl, heq⟩ := exists_event_of_log h
  obtain ⟨⟨_, _, _, took'⟩, he', rfl, heq'⟩ := exists_event_of_log h'
  cases heq
  cases heq'
  exact congrArg Event.pid (eq_of_filterMap_nodup hs.missed he he' rfl rfl)

/-- An event that a delivery is about to insert is new. -/
theorem new_of_stamped (h : Reachable (api P config InTurn) World.initial cfg) {row : WebhookEvent}
    {stamp : String × ℕ} (hstamped : Stamped row.providerEventId stamp (own i (World.log cfg.state)))
    (hid : stamp.1 = row.id) : ∀ e ∈ (World.db cfg.state).webhookEvents,
      e.id ≠ row.id ∧ e.providerEventId ≠ row.providerEventId := by
  intro e he
  have hordered := ordered_of_reachable h
  obtain ⟨j, ⟨row', r, hwrite⟩, ⟨moment, hgenerated⟩, hmissed⟩ := maker (fun _ hcall => hcall) h he
  obtain ⟨old, hold, htr⟩ := hstamped
  have hold' : old = [⟨lookup row.providerEventId, .ok none⟩] := hold
  subst hold'
  have hown {x : Exchange signature}
      (hx : x ∈ [⟨.defaults, .ok stamp⟩, ⟨lookup row.providerEventId, .ok none⟩]) :
      (i, x) ∈ World.log cfg.state := mem_own.mp (htr.symm ▸ hx)
  -- The maker of the event would be this delivery, which has not inserted anything.
  have hother : j ≠ i := by
    rintro rfl
    rcases List.mem_cons.mp (htr ▸ mem_own.mpr hwrite) with heq | hmem
    · cases heq
    · cases List.mem_singleton.mp hmem
  constructor
  · intro heq
    obtain ⟨stampId, moment'⟩ := stamp
    cases hid
    exact hother (hordered.pid_of_generated (heq ▸ hgenerated) (hown (.head _)))
  · intro heq
    exact hother (hordered.pid_of_missed (heq ▸ hmissed) (hown (.tail _ (.head _))))

/-- The insert of a new event is carried out. -/
theorem insert_answered {row : WebhookEvent} {r : Except Err WebhookEvent}
    (hnew : ∀ e ∈ s.db.webhookEvents, e.id ≠ row.id ∧ e.providerEventId ≠ row.providerEventId)
    (hstorable : (Write.createWebhookEvent row).storable = true) (hfault : ch.fault = .none)
    (h : World.exec P config i (.write .pool (.createWebhookEvent row)) ch s = some (r, t)) :
    ∃ a, r = .ok a := by
  rcases exec_eq_some h with ⟨-, hf, -⟩ | ⟨r', s', hp, hr | ⟨-, hf, -⟩, -⟩
  · rw [hfault] at hf
    cases hf
  · subst hr
    rcases write_eq_some hp with ⟨-, code, hrejects, -⟩ | ⟨row', store, -, -, -, hr, -⟩
    · cases code with
      | valueOutOfRange => cases hrejects
      | invalidText => exact absurd (hstorable.symm.trans hrejects) nofun
      | recordNotFound => cases hrejects
      | uniqueConstraint =>
          obtain ⟨k, hk, hindex⟩ := Store.write_eq_conflict hrejects
          have hkeys : k = .webhookEventId row.id ∨
              k = .webhookEventProviderEventId row.provider row.providerEventId := by
            rcases List.mem_cons.mp hk with hk | hk
            · exact .inl hk
            · exact .inr (List.mem_singleton.mp hk)
          rcases hkeys with rfl | rfl
          · obtain ⟨e, he, hid⟩ := mem_keys_webhookEventId.mp hindex
            exact absurd hid (hnew e he).1
          · obtain ⟨e, he, -, hid⟩ := mem_keys_webhookEventProviderEventId.mp hindex
            exact absurd hid (hnew e he).2
    · exact ⟨_, hr⟩
  · rw [hfault] at hf
    cases hf

/-- A command that the world always answers is answered if nothing fails. -/
theorem answered_of_perform {a : c.Resp} {r : Except Err c.Resp} (hfault : ch.fault = .none)
    (hperform : ∀ r t, World.perform P config i c ch s = some (r, t) → r = .ok a)
    (h : World.exec P config i c ch s = some (r, t)) : ∃ a, r = .ok a := by
  rcases exec_eq_some h with ⟨-, hf, -⟩ | ⟨r', s', hp, hr | ⟨-, hf, -⟩, -⟩
  · rw [hfault] at hf
    cases hf
  · exact ⟨a, hr.trans (hperform _ _ hp)⟩
  · rw [hfault] at hf
    cases hf

/-- An id that a delivery has generated is one that a column can hold. -/
theorem id_fits_of_stamped (h : Reachable (api P config InTurn) World.initial cfg)
    {stamp : String × ℕ} (hstamped : Stamped eventId stamp (own i (World.log cfg.state))) :
    isColumnText stamp.1 = true := by
  obtain ⟨old, -, htr⟩ := hstamped
  have hlog : (i, ⟨.defaults, .ok stamp⟩) ∈ World.log cfg.state := mem_own.mp (htr.symm ▸ .head _)
  obtain ⟨⟨_, _, _, took⟩, he, rfl, heq⟩ := exists_event_of_log hlog
  cases heq
  exact (ordered_of_reachable h).fits _ (List.mem_filterMap.mpr ⟨_, he, rfl⟩)

/-- The next command of a delivery is answered. -/
theorem delivery_answered (h : Reachable (api P config InTurn) World.initial cfg) (hbody : body.Fits)
    {k : Except Err c.Resp → Program Response}
    (hth : cfg.threads i = some (.running (.flutterwaveWebhook hash body) (.op c k)))
    (hfault : ch.fault = .none) {r : Except Err c.Resp}
    (he : World.exec P config i c ch cfg.state = some (r, t)) : ∃ a, r = .ok a := by
  have hdemand : deliveryDemand body (own i (World.log cfg.state)) c :=
    (deliveries_followed h).demand hth
  cases c with
  | select client q => exact answered_of_perform hfault (fun r t hp => by cases hp; rfl) he
  | defaults => exact answered_of_perform hfault (fun r t hp => by cases hp; rfl) he
  | queueAdd job => exact answered_of_perform hfault (fun r t hp => by cases hp; rfl) he
  | write client w =>
      unfold deliveryDemand at hdemand
      split at hdemand
      · rename_i heq
        cases heq
      · rename_i heq
        cases heq
      · rename_i row heq
        cases heq
        obtain ⟨-, ⟨stamp, hstamped, hid⟩, hstorable⟩ := hdemand
        exact insert_answered (new_of_stamped h hstamped hid)
          (hstorable hbody (hid ▸ id_fits_of_stamped h hstamped)) hfault he
      · rename_i heq
        cases heq
      · exact hdemand.elim
  | _ => exact hdemand.elim

/-- So every command of a delivery has been answered. -/
theorem all_answered (h : Reachable (api P config InTurn) World.initial cfg) (hbody : body.Fits)
    {th : Thread _}
    (hth : cfg.threads i = some th) (hcall : th.call = .flutterwaveWebhook hash body) :
    ∀ x ∈ own i (World.log cfg.state), ∃ a, x.result = .ok a := by
  induction h generalizing th with
  | initial => cases hth
  | @next cfg cfg' a hr hp hn ih =>
      cases a with
      | spawn j call =>
          obtain ⟨hnone, rfl⟩ := next_spawn_iff.mp hn
          by_cases hij : i = j
          · subst hij
            have hunborn : own i (World.log cfg.state) = [] := (deliveries_followed hr).unborn hnone
            exact fun x hx => absurd (hunborn ▸ hx) List.not_mem_nil
          · rw [Config.threads_set_of_ne _ _ _ hij] at hth
            exact ih hth hcall
      | crash j =>
          obtain ⟨call, p, hj, rfl⟩ := next_crash_iff.mp hn
          by_cases hij : i = j
          · subst hij
            rw [Config.threads_set_self] at hth
            cases hth
            exact ih hj hcall
          · rw [Config.threads_set_of_ne _ _ _ hij] at hth
            exact ih hth hcall
      | step j ch =>
          obtain ⟨call, c, k, r, t, hj, he, rfl⟩ := next_step_iff.mp hn
          rw [Config.state_set, World.log_exec he]
          by_cases hij : i = j
          · subst hij
            rw [Config.threads_set_self] at hth
            cases hth
            cases hcall
            rw [own_cons_self]
            intro x hx
            rcases List.mem_cons.mp hx with rfl | hold
            · exact delivery_answered hr hbody hj (hp _ c k hj).1.1 he
            · exact ih hj rfl x hold
          · rw [own_cons_of_ne (Ne.symm hij)]
            rw [Config.threads_set_of_ne _ _ _ hij] at hth
            exact ih hth hcall

/-- No open transaction holds a key of an event. -/
theorem webhookKey_free (h : Reachable (api P config A') World.initial cfg) {row : WebhookEvent}
    {k : Key} (hk : k ∈ row.keys) : (World.store cfg.state).claims k = none := by
  have C := api_certified P config A' .true
  have hcoherent : (World.store cfg.state).Coherent := (C.inv h).1
  cases hclaim : (World.store cfg.state).claims k with
  | none => rfl
  | some j =>
      obtain ⟨ws, hopen, w, hw, hkw⟩ := hcoherent.claimed.mp hclaim
      obtain ⟨th, -, hissues⟩ := (issues_of_reachable (fun _ hc => hc) h).2 j ws hopen w hw
      have hin := inTransaction_of_writes hissues
      replace hkw : k ∈ w.keys := hkw
      simp only [WebhookEvent.keys, List.mem_cons, List.not_mem_nil, or_false] at hk
      cases w with
      | createWalletTransaction row' =>
          rcases hk with rfl | rfl <;> simp [Write.keys, WalletTransaction.keys] at hkw
      | createWithdrawal row' =>
          rcases hk with rfl | rfl <;> simp [Write.keys, Withdrawal.keys] at hkw
      | updateWalletTransactionStatus id status => cases hkw
      | updateWithdrawal id data => cases hkw
      | _ => cases hin

/-- The insert of an event does not wait if its keys are free. -/
theorem insert_moves {row : WebhookEvent} (hfree : ∀ k ∈ row.keys, s.store.claims k = none) :
    ∃ r t, World.perform P config i (.write .pool (.createWebhookEvent row)) ch s = some (r, t) := by
  show ∃ r t, s.write i .pool (.createWebhookEvent row) = some (r, t)
  have hmoves : s.stage i (.createWebhookEvent row) .pool ≠ .blocked := by
    intro hblocked
    obtain ⟨k, hk, hclaim⟩ := Store.write_eq_blocked hblocked
    have hnone : s.store.claims k = none := hfree k hk
    rw [hnone] at hclaim
    cases hclaim
  obtain ⟨⟨r, t⟩, hwrite⟩ := Option.isSome_iff_exists.mp (isSome_write hmoves)
  exact ⟨r, t, hwrite⟩

/-- A delivery never waits. -/
theorem delivery_moves (h : Reachable (api P config A') World.initial cfg)
    {k : Except Err c.Resp → Program Response}
    (hth : cfg.threads i = some (.running (.flutterwaveWebhook hash body) (.op c k))) (ch : Choice) :
    ∃ r t, World.exec P config i c ch cfg.state = some (r, t) := by
  have hdemand : deliveryDemand body (own i (World.log cfg.state)) c :=
    (deliveries_followed h).demand hth
  have hperform : ∃ r t, World.perform P config i c ch cfg.state = some (r, t) := by
    cases c with
    | select client q => exact ⟨_, _, rfl⟩
    | defaults => exact ⟨_, _, rfl⟩
    | queueAdd job => exact ⟨_, _, rfl⟩
    | write client w =>
        unfold deliveryDemand at hdemand
        split at hdemand
        · rename_i heq
          cases heq
        · rename_i heq
          cases heq
        · rename_i row heq
          cases heq
          exact insert_moves fun k hk => webhookKey_free h hk
        · rename_i heq
          cases heq
        · exact hdemand.elim
    | _ => exact hdemand.elim
  obtain ⟨r, t, hp⟩ := hperform
  unfold World.exec
  split
  · exact ⟨_, _, rfl⟩
  · rw [hp]
    exact ⟨_, _, rfl⟩

/-- A delivery goes on without waiting, for four commands at most, and ends with the
id of the one event that is stored. -/
structure GoesThrough (cfg : Machine.Config (walletApi P config)) (i : ℕ) (eventId : String)
    (p : Program Response) : Prop where
  short : (own i (World.log cfg.state)).length ≤ 4
  moves : ∀ c k, p = .op c k → ∀ ch, ∃ r t, World.exec P config i c ch cfg.state = some (r, t)
  ends : p.Done → ∃ id, p = .ret (.received id) ∧
    ((World.db cfg.state).webhookEvents.filter (·.providerEventId = eventId)).map (·.id) = [id]

theorem Stamped.length {stamp : String × ℕ} (h : Stamped eventId stamp tr) : tr.length = 2 := by
  obtain ⟨old, hmissed, rfl⟩ := h
  have hmissed' : old = [_] := hmissed
  rw [hmissed']
  rfl

theorem Knows.length {e : WebhookEvent} (h : Knows e tr) : tr.length ≤ 3 := by
  rcases h with rfl | ⟨stamp, old, hstamped, -, rfl⟩
  · exact Nat.succ_le_succ (Nat.zero_le _)
  · rw [List.length_cons, hstamped.length]

/-- A delivery has not exchanged much before a command. -/
theorem length_of_demand (h : deliveryDemand body tr c) : tr.length ≤ 3 := by
  unfold deliveryDemand at h
  split at h
  · rw [h.2]
    exact Nat.zero_le _
  · obtain ⟨eventId, -, hmissed⟩ := h
    have hmissed' : tr = [_] := hmissed
    rw [hmissed']
    exact Nat.succ_le_succ (Nat.zero_le _)
  · obtain ⟨-, ⟨stamp, hstamped, -⟩, -⟩ := h
    rw [hstamped.length]
    exact Nat.le_succ _
  · obtain ⟨e, -, hknows, -⟩ := h
    exact hknows.length
  · exact h.elim

/-- The notice of a payment. -/
def payment : Json := notice "charge.completed" "1" "fund_1"

/-- Two first deliveries of one event at the same time. -/
def firstTwo : List (Action (walletApi platform mockConfig)) :=
  [.spawn 0 (delivery payment), .spawn 1 (delivery payment)] ++ calm 0 1 ++ calm 1 1 ++
    generate 0 ["e1"] ++ generate 1 ["e2"] ++ calm 0 2 ++ calm 1 1

end WalletApi
