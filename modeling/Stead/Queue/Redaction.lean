import Stead.Model.Logic

/-!
# Finished jobs hold no payload

`RedactedBut w found`: every finished job of the queue that is not in the list has exactly the
redacted payload.

## Statements

No statement of any call ever breaks it, whoever issues it and however stale what it knows: a job
that is enqueued is not finished, an attempt is completed by one update that sets the status and the
payload together, and no other statement finishes a job (`exec_redactedBut`). So no condition on
leases or on lost answers is needed here.

## The start-up redaction

A start-up redaction that completes establishes it without exceptions (`Redacted`), whatever the
table held before and whatever runs at the same time: the jobs it found when it started are the
exceptions until it redacts them. A job that is finished after that was finished by a completion,
which erases the payload itself.

As a protocol, the guarantee of every call is that it adds no exception, and what the redaction
proves is stable under it (`redactedBut_stable`).
-/

namespace Stead

open Concurrency Protocol

variable {ι : Type} [DecidableEq ι]

/-- Every finished job that is not in the list has the redacted payload. -/
def RedactedBut (w : World ι) (found : List ℕ) : Prop :=
  ∀ id j, w.notificationJobs.stored id = some j → j.status.terminal = true → id ∉ found →
    j.payloadJson = REDACTED_PAYLOAD_JSON

/-- Every finished job has the redacted payload. -/
def Redacted (w : World ι) : Prop := RedactedBut w []

/-- What a well-formed statement makes of a job is redacted if it is finished. -/
theorem NotificationJobEdit.redacted {s : NotificationJobStatement} {k : ℕ}
    {j j' : NotificationJob} (he : NotificationJobEdit j s k j')
    (hs : (Op.notificationJob s).WellFormed)
    (hj : j.status.terminal = true → j.payloadJson = REDACTED_PAYLOAD_JSON)
    (hj' : j'.status.terminal = true) : j'.payloadJson = REDACTED_PAYLOAD_JSON := by
  cases he with
  | adopt => exact hj hj'
  | claim => cases hj'
  | update k data => exact hs.payload_of_terminal hj'
  | redactTerminal => rfl

/-- **No statement leaves a payload behind.** -/
theorem exec_redactedBut {crypto : Crypto} {i : ι} {x : Choice} {op : Op} {w t : World ι}
    {r : Except StatementError op.Ret} (hop : op.WellFormed)
    (h : exec crypto i x op w = some (r, t)) {found : List ℕ} (hw : RedactedBut w found) :
    RedactedBut t found := by
  intro id j hj hterminal hid
  cases exec_notificationJobs h id with
  | same he => exact hw id j (he ▸ hj) hterminal hid
  | edit hs hj₀ he hnew =>
    obtain rfl : j = _ := Option.some.inj (hj.symm.trans hnew)
    subst hs
    exact he.redacted hop (fun h ↦ hw id _ hj₀ h hid) hterminal
  | create hs _ _ _ _ _ hnew =>
    obtain rfl : j = _ := Option.some.inj (hj.symm.trans hnew)
    subst hs
    have hstatus : _ = NotificationJobStatus.pending := NewNotificationJob.Initial.status hop
    simp [NewNotificationJob.row, hstatus, NotificationJobStatus.terminal] at hterminal

/-- What is finished and not redacted is found. -/
theorem exec_findUnredacted {crypto : Crypto} {i : ι} {x : Choice} {w t : World ι}
    {found : List ℕ}
    (h : exec crypto i x (.notificationJob .findUnredacted) w = some (.ok found, t)) :
    RedactedBut t found := by
  have hp := perform_of_exec_ok h
  cases hp
  intro id j hj hterminal hid
  by_contra hpayload
  refine hid (List.mem_map.2 ⟨⟨id, j⟩, Table.mem_select.2 ⟨?_, ?_⟩, rfl⟩)
  · rw [Cell.view_none]
    exact hj
  · simp [NotificationJob.unredacted, hterminal, hpayload]

/-- A redaction that is answered has reached what was found. -/
theorem exec_redactTerminal {crypto : Crypto} {i : ι} {x : Choice} {w t : World ι} {n : ℕ}
    {found : List ℕ} (hw : RedactedBut w found)
    (h : exec crypto i x (.notificationJob (.redactTerminal found)) w = some (.ok n, t)) :
    Redacted t := by
  have hp := perform_of_exec_ok h
  simp only [perform, NotificationJobStatement.perform] at hp
  split at hp
  · cases hp
  split at hp <;> cases hp
  next hu =>
  intro id j hj hterminal _
  rcases Table.updateMany_cell hu id with ⟨hsame, hclean⟩ | ⟨-, j₀, -, -, -, hwrote⟩
  · have hj₀ : w.notificationJobs.stored id = some j :=
      (congrArg Cell.stored hsame).symm.trans hj
    by_cases hid : id ∈ found
    · simpa [NotificationJob.unredacted, hterminal] using
        hclean hid j ((Cell.view_none _).trans hj₀)
    · exact hw id j hj₀ hterminal hid
  · have hnew := hj.symm.trans (congrArg Cell.stored hwrote)
    exact (Option.some.inj hnew) ▸ rfl

/-- The threads promise each other that finished jobs stay redacted. -/
def redactionProtocol (crypto : Crypto) : Protocol (machine ι crypto) .all where
  Inv _ := True
  Guar _ s s' := ∀ found, RedactedBut s.shared found → RedactedBut s'.shared found
  crash_ok _ _ _ _ := ⟨trivial, fun _ h ↦ h⟩

section Calls

variable (env : Env)

/-- Others keep what has been redacted. -/
theorem redactedBut_stable (i : ι) (found : List ℕ) :
    (redactionProtocol env.crypto).Stable i fun s ↦ RedactedBut s.shared found := by
  intro s s' hr hs
  obtain ⟨j, -, -, hg⟩ := hr.move
  exact hg found hs

/-- **The redaction**: when it is done there are no exceptions. -/
theorem redactTerminalPayloads_triple (i : ι) :
    (redactionProtocol env.crypto).Triple i (fun _ ↦ True) redactTerminalPayloads
      (fun _ s ↦ Redacted s.shared) fun _ _ ↦ True := by
  have hfind : (Op.notificationJob .findUnredacted).WellFormed := trivial
  refine triple_run_bind (fun found s ↦ RedactedBut s.shared found) (fun _ _ ↦ True) .const
    (fun s x r t _ _ _ hx ↦ ⟨trivial, fun _ ↦ exec_redactedBut hfind hx, ?_, fun _ _ ↦ trivial⟩)
    (fun found ↦ ?_) fun _ ↦ .throw .const fun _ _ h ↦ h
  · rintro found rfl
    exact exec_findUnredacted hx
  have hredact : (Op.notificationJob (.redactTerminal found)).WellFormed := trivial
  refine triple_run_bind (fun _ s ↦ Redacted s.shared) (fun _ _ ↦ True)
    (redactedBut_stable env i found)
    (fun s x r t _ hs _ hx ↦ ⟨trivial, fun _ ↦ exec_redactedBut hredact hx, ?_, fun _ _ ↦ trivial⟩)
    (fun _ ↦ .pure (redactedBut_stable env i []) fun _ _ h ↦ h) fun _ ↦ .throw .const fun _ _ h ↦ h
  rintro n rfl
  exact exec_redactTerminal hs hx

/-- **Every call** gives the guarantee. -/
theorem call_triple (i : ι) (call : ApiCall) :
    (redactionProtocol env.crypto).Triple i (fun _ ↦ True) (call.program env)
      (fun _ _ ↦ True) fun _ _ ↦ True :=
  .of_all (call.wellFormed env) .const fun _ hop _ _ _ _ _ _ _ hx ↦
    ⟨trivial, fun _ ↦ exec_redactedBut hop hx, trivial⟩

/-- **Finished jobs never hold personal payloads.** From the moment a start-up redaction has
answered, on any database and next to any other calls, every job that is sent or dead-lettered has
exactly the redacted payload. -/
theorem finished_jobs_are_redacted (w : World ι) (calls : ι → ApiCall) (i : ι)
    (hi : calls i = .redactTerminalPayloads) {c c' : System ι}
    (hc : System.Reaches env .all (System.start env w calls) c)
    (hdone : c.Answered i (.ok .done)) (hc' : System.Reaches env .all c c') (id : ℕ)
    (j : NotificationJob) (hj : c'.state.shared.notificationJobs.stored id = some j)
    (hterminal : j.status = .sent ∨ j.status = .deadLetter) :
    j.payloadJson = REDACTED_PAYLOAD_JSON := by
  have hsafe : (redactionProtocol env.crypto).AllSafe
      (fun k _ s ↦ k = i → Redacted s.shared) (fun _ _ _ ↦ True) (System.start env w calls) := by
    refine .start (fun _ _ ↦ True) trivial (fun _ ↦ trivial) fun k ↦ ?_
    by_cases hk : k = i
    · rw [hk, hi]
      exact .bind (redactTerminalPayloads_triple env i) fun _ ↦
        .pure (redactedBut_stable env i []) fun _ _ h _ ↦ h
    · exact (call_triple env k (calls k)).post (fun _ _ _ _ h ↦ absurd h hk) fun _ _ _ h ↦ h
  have hred : Redacted c.state.shared := (hsafe.run hc).answer hdone rfl
  have hkeep : Redacted c.state.shared → Redacted c'.state.shared :=
    (hsafe.run hc).along (P := redactionProtocol env.crypto)
      (R := fun s s' ↦ Redacted s.shared → Redacted s'.shared) (fun _ h ↦ h)
      (fun _ _ _ h h' hs ↦ h' (h hs)) (fun _ _ _ _ _ _ hg ↦ hg []) hc'
  refine hkeep hred id j hj ?_ (List.not_mem_nil)
  rcases hterminal with h | h <;> simp [h, NotificationJobStatus.terminal]

end Calls

namespace Demo

/-- A request for a code, a consumer that delivers it, and a redaction. -/
def redactCalls : ℕ → ApiCall
  | 0 => requestOtp '0'
  | 1 => .tick
  | _ => .redactTerminalPayloads

/-- The redaction is done; then the code is requested and sent. -/
theorem redact_runs : ((System.start env world redactCalls).turns (machine ℕ crypto) anything
    (steps 2 2)).any (fun c ↦ (c.progs 2).bind Prog.outcome = some (.ok .done) ∧
      (c.turns (machine ℕ crypto) anything (steps 0 18 ++ steps 1 9)).any (fun c' ↦
        (c'.state.shared.notificationJobs.stored 0).map NotificationJob.status = some .sent) =
          true) = true := by
  decide +kernel

/-- The system after the redaction. -/
def redacted : System ℕ :=
  after (System.start env world redactCalls) _ _ (Option.isSome_of_any redact_runs)

theorem redacted_tests : (redacted.progs 2).bind Prog.outcome = some (.ok .done) ∧
    (redacted.turns (machine ℕ crypto) anything (steps 0 18 ++ steps 1 9)).any (fun c' ↦
      (c'.state.shared.notificationJobs.stored 0).map NotificationJob.status = some .sent) =
        true :=
  of_decide_eq_true (Config.afterTurns_of_any redact_runs)

/-- The system after that. -/
def sent : System ℕ := after redacted _ _ (Option.isSome_of_any redacted_tests.2)

end Demo

/-- The job that was sent has no payload. -/
theorem finished_jobs_are_redacted_sent :
    ∃ j, Demo.sent.state.shared.notificationJobs.stored 0 = some j ∧ j.status = .sent ∧
      j.payloadJson = REDACTED_PAYLOAD_JSON := by
  have hstatus := of_decide_eq_true (Config.afterTurns_of_any Demo.redacted_tests.2)
  have hdone : Demo.redacted.Answered 2 (.ok .done) := Config.answered_iff.2 Demo.redacted_tests.1
  obtain ⟨j, hj, hsent⟩ := Option.map_eq_some_iff.1 hstatus
  exact ⟨j, hj, hsent, finished_jobs_are_redacted Demo.env Demo.world Demo.redactCalls 2 rfl
    (Demo.reaches_after _ _ _) hdone (Demo.reaches_after _ _ _) 0 j hj (.inl hsent)⟩

end Stead
