import MeridianPostgreSQL.Evidence.AppendEffects
import MeridianPostgreSQL.Foundation.TransactionRuns

/-! # Exactly-once appends over whole runs

Every interleaving of append transactions commits the records of a replay key
at most once, and answers every request for the key with that one insertion. -/

namespace MeridianPostgreSQL.Evidence

open ReadCommitted

abbrev EvidenceServer := Server EvidenceRow AppendError (List Answer)

variable (runtime : EvidenceRuntime)

/-! ## Insertions -/

/-- The answer inserted the records of the key. -/
def Answer.Inserts (answer : Answer) (key : String) (result : AppendResult) : Prop :=
  answer.outcome = .ok result ∧ result.replay = false ∧
    requestKey runtime answer.request = some key

/-- No key is inserted by two answers, nor by one that found it at the start. -/
structure InsertedOnce (initial : EvidenceStore) (answers : List Answer) : Prop where
  absent : ∀ ⦃answer⦄, answer ∈ answers → ∀ ⦃key result⦄,
    answer.Inserts runtime key result → initial (.replay key) = none
  unique : ∀ ⦃earlier first between second later⦄,
    answers = earlier ++ first :: (between ++ second :: later) →
    ∀ ⦃key result other⦄, first.Inserts runtime key result →
      ¬ second.Inserts runtime key other

/-- A success for a key shows what its replay row stores. Where the run began
without the row, one insertion of the run made it. -/
def Agrees (initial rows : EvidenceStore) (answers : List Answer) : Prop :=
  ∀ ⦃answer⦄, answer ∈ answers → ∀ ⦃result key⦄, answer.outcome = .ok result →
    requestKey runtime answer.request = some key →
    ∃ data, rows (.replay key) =
        some ⟨answer.request.requestFingerprint, some data⟩ ∧
      result.data.jsonb = data.jsonb ∧
      (initial (.replay key) = none → ∃ source ∈ answers, ∃ inserted,
        source.Inserts runtime key inserted ∧ inserted.data = data ∧
        source.request.requestFingerprint = answer.request.requestFingerprint)

def Complete (rows : EvidenceStore) : Prop :=
  ∀ ⦃key⦄ ⦃row : ReplayRow⦄, rows (.replay key) = some row → row.result ≠ none

variable {runtime} {initial rows : EvidenceStore} {answers : List Answer}

theorem Answer.Inserts.entry {answer : Answer} {key : String} {result : AppendResult}
    (inserts : answer.Inserts runtime key result) :
    (⟨.replay key, ⟨answer.request.requestFingerprint, some result.data⟩⟩ :
      Entry EvidenceRow) ∈ answer.entries runtime := by
  rcases inserts with ⟨outcome, first, named⟩
  simp [Answer.entries, outcome, first, replayEntries, named]

/-- A replay row among the entries comes from an insertion of its key. -/
theorem inserts_of_entry {answer : Answer} {key : String} {row : ReplayRow}
    (member : (⟨.replay key, row⟩ : Entry EvidenceRow) ∈ answer.entries runtime) :
    ∃ result, answer.Inserts runtime key result ∧
      row = ⟨answer.request.requestFingerprint, some result.data⟩ := by
  cases outcome : answer.outcome with
  | error error => simp [Answer.entries, outcome] at member
  | ok result =>
      cases replay : result.replay with
      | true => simp [Answer.entries, outcome, replay] at member
      | false =>
          refine ⟨result, ?_⟩
          cases named : requestKey runtime answer.request with
          | none =>
              simp [Answer.entries, outcome, replay, replayEntries, named,
                recordEntries] at member
          | some other =>
              simp [Answer.entries, outcome, replay, replayEntries, named,
                recordEntries] at member
              rcases member with ⟨rfl, same⟩
              exact ⟨⟨outcome, replay, named⟩, same⟩

theorem insertedOnce_of_installed
    (installed : Installed (entriesOf runtime answers) initial rows) :
    InsertedOnce runtime initial answers where
  absent := by
    intro answer member key result inserts
    exact installed.fresh _ (List.mem_flatMap.mpr ⟨answer, member, inserts.entry⟩)
  unique := by
    intro earlier first between second later split key result other inserts again
    have distinct := installed.distinct
    rw [split] at distinct
    simp only [entriesOf, List.flatMap_append, List.flatMap_cons, List.map_append]
      at distinct
    have rest := (List.nodup_append.mp distinct).2.1
    apply (List.nodup_append.mp rest).2.2 (.replay key)
      (List.mem_map_of_mem (f := Sigma.fst) inserts.entry) (.replay key) _ rfl
    simp only [List.mem_append]
    exact .inr (.inl (List.mem_map_of_mem (f := Sigma.fst) again.entry))

theorem complete_of_installed
    (installed : Installed (entriesOf runtime answers) initial rows)
    (complete : Complete initial) : Complete rows := by
  intro key row found
  rcases (installed.rows (.replay key) row).mp found with old | listed
  · exact complete old
  · rcases List.mem_flatMap.mp listed with ⟨answer, _, entry⟩
    rcases inserts_of_entry entry with ⟨result, _, rfl⟩
    simp

theorem agrees_of_installed
    (installed : Installed (entriesOf runtime answers) initial rows)
    (faithful : ∀ answer ∈ answers, Faithful runtime rows answer) :
    Agrees runtime initial rows answers := by
  intro answer member result key outcome named
  cases replay : result.replay with
  | false =>
      have inserts : answer.Inserts runtime key result := ⟨outcome, replay, named⟩
      have listed : _ ∈ entriesOf runtime answers :=
        List.mem_flatMap.mpr ⟨answer, member, inserts.entry⟩
      exact ⟨result.data, installed.mem listed, rfl,
        fun _ => ⟨answer, member, result, inserts, rfl, rfl⟩⟩
  | true =>
      rcases (faithful answer member).replayed result outcome replay with
        ⟨other, data, otherNamed, found, equal⟩
      cases named.symm.trans otherNamed
      refine ⟨data, found, ?_, ?_⟩
      · rw [equal, runtime.column.load_jsonb]
      · intro absent
        rcases (installed.rows _ _).mp found with old | listed
        · exact nomatch absent.symm.trans old
        · rcases List.mem_flatMap.mp listed with ⟨source, present, entry⟩
          rcases inserts_of_entry entry with ⟨inserted, inserts, same⟩
          rcases ReplayRow.mk.inj same with ⟨fingerprint, stored⟩
          exact ⟨source, present, inserted, inserts, (Option.some.inj stored).symm,
            fingerprint.symm⟩

theorem entriesOf_append (first second : List Answer) :
    entriesOf runtime (first ++ second) =
      entriesOf runtime first ++ entriesOf runtime second := by
  simp [entriesOf]

theorem AppendEffect.append {middle : EvidenceStore} {more : List Answer}
    (first : AppendEffect runtime initial answers middle)
    (second : AppendEffect runtime middle more rows) :
    AppendEffect runtime initial (answers ++ more) rows where
  installed := by
    rw [entriesOf_append]
    exact first.installed.trans second.installed
  faithful := by
    intro answer member
    rcases List.mem_append.mp member with old | new
    · exact (first.faithful answer old).extends second.installed.extension
    · exact second.faithful answer new

/-- The commits of a run add up to one effect of all their answers. -/
theorem run_effect {server : EvidenceServer}
    (reachable : Reachable (AppendTransaction runtime) initial server) :
    AppendEffect runtime initial server.committed.log.flatten server.committed.rows := by
  apply (evidenceContract runtime).reachable_induction
    (fun committed => AppendEffect runtime initial committed.log.flatten committed.rows)
    (fun program admitted => transaction_certified admitted) trivial _ _ reachable
  · exact ⟨.nil initial, fun _ absent => nomatch absent⟩
  · intro committed answers rows _ effects effect
    simpa [Committed.extend] using effects.append effect

/-! ## Mismatches -/

/-- From here on, a transaction that begins refuses every request whose key
has a different fingerprint, whatever other transactions do meanwhile. -/
def MismatchesRefused (runtime : EvidenceRuntime) (server : EvidenceServer) : Prop :=
  ∀ ⦃session program⦄, AppendTransaction runtime program →
    server.transactions session = none →
    ∀ ⦃last : EvidenceServer⦄,
    Relation.ReflTransGen (Step.Open (AppendTransaction runtime) session)
      (server.withTransaction session (some ⟨.fresh, program⟩)) last →
    (∀ ⦃workspace answers⦄,
      last.transactions session = some ⟨workspace, .finish answers⟩ →
      RefusesMismatches runtime server.committed.rows answers) ∧
    ∀ ⦃limits request workspace error⦄, program = singleAppend runtime limits request →
      last.transactions session = some ⟨workspace, .fail error⟩ →
      RefusesMismatches runtime server.committed.rows [⟨request, .error error⟩]

theorem mismatches_refused {server : EvidenceServer}
    (reachable : Reachable (AppendTransaction runtime) initial server) :
    MismatchesRefused runtime server := by
  intro session program admitted idle last run
  have sound := (evidenceContract runtime).reachable_sound
    (fun program admitted => transaction_certified admitted) trivial reachable
  have certified : ∀ program, AppendTransaction runtime program →
      (evidenceContract runtime).Certifies program :=
    fun program admitted => transaction_certified admitted
  constructor
  · intro workspace answers finished
    rcases sound.ensured certified admitted idle
      (fun later interferes _ => yields_transaction admitted
        (extends_of_interferes interferes)) run with ⟨_, _, current, ensured⟩
    cases finished.symm.trans current
    exact ensured.refuses
  · intro limits request workspace error single failed
    subst single
    rcases sound.ensured certified admitted idle
      (fun later interferes _ => wp_singleAppend request
        (extends_of_interferes interferes)) run with ⟨_, _, current, ensured⟩
    cases failed.symm.trans current
    exact ensured.refuses

/-! ## Later attempts -/

/-- The rows an append of the commands inserts when the clock shows `now`. -/
def rowsAt (now : Int) (commands : List AppendCommand) : List (RecordKey × RecordRow) :=
  commands.map fun command => (command.key, ⟨command.values, now⟩)

/-- Nothing stands in the way of an append: its deadline is ahead, its replay
key and record keys are free and its result fits. -/
structure Insertable (runtime : EvidenceRuntime) (limits : EvidenceSession)
    (rows : EvidenceStore) (held : Set EvidenceKey) (request : AppendRequest)
    (commands : AppendCommands) (now : Int) : Prop where
  binding : request.bindingId = limits.bindingId
  timeout : 0 < limits.operationTimeout
  live : request.expired now = false
  compiled : runtime.compile request = .ok commands
  unclaimed : ∀ key, requestKey runtime request = some key →
    rows (.replay key) = none ∧ .replay key ∉ held
  free : ∀ command ∈ commands.all,
    rows (.record command.key) = none ∧ .record command.key ∉ held
  distinct : (commands.all.map AppendCommand.key).Nodup
  fits : ∃ size,
    runtime.encodedSize (appendData runtime commands (rowsAt now commands.all)) =
      some size ∧ size ≤ limits.maxResultBytes

section Attempts

variable {limits : EvidenceSession} {held : Set EvidenceKey} {request : AppendRequest}
  {commands : AppendCommands} {now : Int} {workspace : Workspace EvidenceRow}

theorem may_insertRecords {deadline : Int} (live : request.expired now = false)
    (ahead : now < deadline) (records : List AppendCommand)
    (distinct : (records.map AppendCommand.key).Nodup)
    (free : ∀ command ∈ records,
      overlay workspace.writes rows (.record command.key) = none ∧
        .record command.key ∉ held) :
    (insertRecords request deadline records).May rows held
      (fun inserted after => inserted = rowsAt now records ∧
        after.saved = workspace.saved)
      (fun _ _ => False) workspace := by
  induction records generalizing workspace with
  | nil => exact ⟨rfl, rfl⟩
  | cons command rest induction =>
      rcases free command (.head rest) with ⟨absent, available⟩
      rcases List.nodup_cons.mp distinct with ⟨unlisted, others⟩
      have ahead' : ¬ deadline ≤ now := by omega
      unfold insertRecords
      apply Program.may_bind.mpr
      apply Program.may_timestamp now
      simp only [live, ahead', decide_false, Bool.or_self, Bool.false_eq_true, if_false]
      apply Program.may_bind.mpr
      apply Program.may_unlessRefused
      apply Program.may_bind.mpr
      apply Program.may_timestamp now
      apply Program.may_bind.mpr
      apply Program.may_write available
      rw [absent]
      dsimp only [insertRow]
      apply Program.may_bind.mpr
      apply (induction others _).mono
      · rintro inserted after ⟨rfl, saved⟩
        exact ⟨rfl, saved⟩
      · exact fun _ _ absurd => absurd
      · intro other member
        rcases free other (.tail command member) with ⟨absent, available⟩
        refine ⟨?_, available⟩
        rw [Workspace.overlay_record_put, Function.update_of_ne, absent]
        intro same
        rw [← EvidenceKey.record.inj same] at unlisted
        exact unlisted (List.mem_map_of_mem member)

theorem may_checkSize {data : Json} {size : Nat}
    (encoded : runtime.encodedSize data = some size)
    (fits : size ≤ limits.maxResultBytes)
    {post : Unit → Workspace EvidenceRow → Prop}
    {failed : AppendError → Workspace EvidenceRow → Prop} (holds : post () workspace) :
    (checkSize runtime limits data).May rows held post failed workspace := by
  have within : ¬ limits.maxResultBytes < size := by omega
  simp only [checkSize, encoded, within, if_false]
  exact holds

/-- The result of an append that finds its keys free. -/
def firstResult (runtime : EvidenceRuntime) (commands : AppendCommands) (now : Int) :
    AppendResult where
  data := appendData runtime commands (rowsAt now commands.all)
  replay := false
  rows := rowsAt now commands.all

theorem may_appendRecords (insertable :
      Insertable runtime limits rows held request commands now)
    {deadline : Int} (ahead : now < deadline)
    (free : ∀ command ∈ commands.all,
      overlay workspace.writes rows (.record command.key) = none)
    {key : Option String} (named : requestKey runtime request = key) :
    (appendRecords runtime limits commands request deadline key).May rows held
      (fun result after => result = firstResult runtime commands now ∧
        after.saved = workspace.saved)
      (fun _ _ => False) workspace := by
  rcases insertable.fits with ⟨size, encoded, fits⟩
  unfold appendRecords
  apply Program.may_bind.mpr
  apply (may_insertRecords insertable.live ahead commands.all insertable.distinct
    fun command member => ⟨free command member, (insertable.free command member).2⟩).mono
  · intro inserted after finished
    rcases finished with ⟨rfl, saved⟩
    dsimp only
    apply Program.may_bind.mpr
    apply may_checkSize encoded fits
    cases key with
    | none => exact ⟨rfl, saved⟩
    | some key =>
        apply Program.may_bind.mpr
        apply Program.may_unlessRefused
        apply Program.may_bind.mpr
        apply Program.may_write (insertable.unclaimed key named).2
        exact ⟨rfl, (Workspace.record_saved after _ _).trans saved⟩
  · exact fun _ _ absurd => absurd

theorem may_appendBody (insertable :
      Insertable runtime limits rows held request commands now)
    {deadline : Int} (ahead : now < deadline)
    (unwritten : workspace.Unwritten) :
    (appendBody runtime limits commands request deadline).May rows held
      (fun result after => result = firstResult runtime commands now ∧
        after.saved = workspace.saved)
      (fun _ _ => False) workspace := by
  have named := requestKey_of_compiled insertable.compiled
  have shown := unwritten.overlay rows
  unfold appendBody
  cases keyed : replayKey runtime commands request with
  | none =>
      rw [keyed] at named
      apply may_appendRecords insertable ahead _ named
      intro command member
      rw [shown]
      exact (insertable.free command member).1
  | some key =>
      rw [keyed] at named
      rcases insertable.unclaimed key named with ⟨absent, available⟩
      dsimp only
      apply Program.may_bind.mpr
      apply Program.may_unlessRefused
      apply Program.may_bind.mpr
      apply Program.may_write available
      rw [shown, absent]
      dsimp only [insertRow]
      apply (may_appendRecords insertable ahead _ named).mono
      · intro result after finished
        exact ⟨finished.1, finished.2.trans (Workspace.record_saved _ _ _)⟩
      · exact fun _ _ absurd => absurd
      · intro command member
        rw [Workspace.overlay_record_put, Function.update_of_ne EvidenceKey.noConfusion,
          shown]
        exact (insertable.free command member).1

/-- A session may append what nothing stands in the way of. -/
theorem may_execute (insertable :
      Insertable runtime limits rows held request commands now)
    {transactional : Bool}
    (joined : Json.get request.input "requireAtomic" = some (.bool true) →
      transactional = true)
    (unwritten : workspace.Unwritten)
    {failed : AppendError → Workspace EvidenceRow → Prop} :
    (execute runtime limits transactional request).May rows held
      (fun result _ => result = firstResult runtime commands now) failed workspace := by
  rcases insertable.fits with ⟨size, encoded, fits⟩
  have timeout := insertable.timeout
  unfold execute
  apply Program.may_bind.mpr
  apply Program.may_timestamp now
  simp only [insertable.live, insertable.binding, insertable.compiled,
    Bool.false_eq_true, if_false, ne_eq, not_true]
  apply Program.may_bind.mpr
  have admitted : ¬ (Json.get request.input "requireAtomic" = some (.bool true) ∧
      transactional = false) := by
    intro refused
    cases (joined refused.1).symm.trans refused.2
  rw [executeAppend, if_neg admitted]
  apply Program.may_bind.mpr
  apply Program.may_timestamp now
  apply Program.may_transaction
  apply (may_appendBody insertable (by omega) _).mono
  · intro result after finished
    rcases finished with ⟨rfl, saved⟩
    refine ⟨_, saved, ?_⟩
    apply Program.may_bind.mpr
    exact may_checkSize encoded fits rfl
  · exact fun _ _ absurd => absurd.elim
  · exact unwritten

/-- A session may answer a request again with the result of its key. -/
theorem may_replay {key : String} {data : Json} {size : Nat}
    (binding : request.bindingId = limits.bindingId) (live : request.expired now = false)
    (compiled : runtime.compile request = .ok commands)
    (alone : Json.get request.input "requireAtomic" ≠ some (.bool true))
    (named : replayKey runtime commands request = some key) (free : .replay key ∉ held)
    (stored : rows (.replay key) = some ⟨request.requestFingerprint, some data⟩)
    (encoded : runtime.encodedSize (runtime.column.load data) = some size)
    (fits : size ≤ limits.maxResultBytes) :
    (singleAppend runtime limits request).May rows held
      (fun answers _ => answers = [⟨request, .ok ⟨runtime.column.load data, true, []⟩⟩])
      (fun _ _ => False) .fresh := by
  unfold singleAppend execute
  apply Program.may_bind.mpr
  apply Program.may_bind.mpr
  apply Program.may_timestamp now
  simp only [live, binding, compiled, Bool.false_eq_true, if_false, ne_eq, not_true]
  apply Program.may_bind.mpr
  rw [executeAppend, if_neg fun refused => alone refused.1]
  apply Program.may_bind.mpr
  apply Program.may_timestamp now
  apply Program.may_transaction
  unfold appendBody
  rw [named]
  dsimp only
  apply Program.may_bind.mpr
  apply Program.may_unlessRefused
  apply Program.may_bind.mpr
  apply Program.may_write free
  have found : ∀ saved, overlay ({ (Workspace.fresh : Workspace EvidenceRow) with
      saved := saved }).writes rows (.replay key) =
        some ⟨request.requestFingerprint, some data⟩ := fun _ => stored
  rw [found]
  dsimp only [insertRow]
  apply Program.may_bind.mpr
  apply Program.may_unlessRefused
  apply Program.may_bind.mpr
  rw [Workspace.record_keep]
  change (replayed runtime request (overlay _ rows (.replay key))).May rows held _ _ _
  rw [found]
  simp only [replayed, ne_eq, not_true, if_false]
  refine ⟨_, rfl, ?_⟩
  apply Program.may_bind.mpr
  exact may_checkSize encoded fits rfl

end Attempts

/-- The two ways to send a request again. -/
inductive Attempt (runtime : EvidenceRuntime) (limits : EvidenceSession)
    (request : AppendRequest) : EvidenceProgram (List Answer) → Prop
  | single (alone : Json.get request.input "requireAtomic" ≠ some (.bool true)) :
      Attempt runtime limits request (singleAppend runtime limits request)
  | explicit : Attempt runtime limits request (explicitAppends runtime limits [request])

/-- An append that nothing stands in the way of can be committed. -/
def LaterAttempts (runtime : EvidenceRuntime) (server : EvidenceServer) : Prop :=
  ∀ ⦃session limits request commands now program⦄,
    server.transactions session = none →
    Insertable runtime limits server.committed.rows (server.heldByOthers session)
      request commands now →
    Attempt runtime limits request program →
    ∃ rows, Relation.ReflTransGen (Step (Eq program)) server
      { server with
        committed := server.committed.extend
          [⟨request, .ok (firstResult runtime commands now)⟩] rows }

theorem later_attempts (server : EvidenceServer) : LaterAttempts runtime server := by
  intro session limits request commands now program idle insertable attempt
  have may : program.May server.committed.rows (server.heldByOthers session)
      (fun answers _ => answers = [⟨request, .ok (firstResult runtime commands now)⟩])
      (fun _ _ => False) .fresh := by
    cases attempt with
    | single alone =>
        unfold singleAppend
        apply Program.may_bind.mpr
        apply (may_execute insertable (fun required => absurd required alone)
          Workspace.fresh_unwritten).mono
        · intro result after finished
          rw [finished]
          rfl
        · exact fun _ _ absurd => absurd
    | explicit =>
        unfold explicitAppends
        apply Program.may_bind.mpr
        apply Program.may_attempt
        apply (may_execute insertable (fun _ => rfl) Workspace.fresh_unwritten).mono
        · intro result after finished
          rw [finished]
          rfl
        · exact fun _ _ absurd => absurd
  rcases Server.run_may (rfl : Eq program program) idle may with
    ⟨answers, workspace, rfl, run⟩
  exact ⟨_, run⟩

/-! ## Exactly once -/

/-- The committed rows are those of the start and of the committed insertions.
Each key is inserted once, complete and answered with that insertion. Other
fingerprints are refused, and what failed can be tried again. -/
structure ExactlyOnce (runtime : EvidenceRuntime) (initial : EvidenceStore)
    (server : EvidenceServer) : Prop where
  installed : Installed (entriesOf runtime server.committed.log.flatten) initial
    server.committed.rows
  inserted : ∀ answer ∈ server.committed.log.flatten, ∀ result,
    answer.outcome = .ok result → result.replay = false →
    Inserted runtime answer.request result
  once : InsertedOnce runtime initial server.committed.log.flatten
  complete : Complete server.committed.rows
  agrees : Agrees runtime initial server.committed.rows server.committed.log.flatten
  refused : MismatchesRefused runtime server
  later : LaterAttempts runtime server

theorem exactly_once (runtime : EvidenceRuntime) {initial : EvidenceStore}
    (complete : Complete initial) {server : EvidenceServer}
    (reachable : Reachable (AppendTransaction runtime) initial server) :
    ExactlyOnce runtime initial server where
  installed := (run_effect reachable).installed
  inserted := fun answer member => ((run_effect reachable).faithful answer member).inserted
  once := insertedOnce_of_installed (run_effect reachable).installed
  complete := complete_of_installed (run_effect reachable).installed complete
  agrees := agrees_of_installed (run_effect reachable).installed
    (run_effect reachable).faithful
  refused := mismatches_refused reachable
  later := later_attempts server

/-- A runtime whose only record holds one value. -/
def exampleRuntime : EvidenceRuntime where
  compile := fun _ => .ok ⟨false, ⟨⟨"evidence.record", [.string "e1"]⟩, []⟩, []⟩
  sha256Fingerprint := fun _ => "sha256:4f53cda1"
  encodedSize := fun _ => some 2
  returning := fun row => .object row.values
  column := .unchanged

def exampleSession : EvidenceSession := ⟨"main", 30, 1024⟩

def exampleRequest : AppendRequest where
  bindingId := "main"
  principalRef := .string "worker"
  tenant := .string "acme"
  scope := []
  contextKey := some "first"
  deadline := none
  operationContract := "evidence.append"
  idempotent := true
  requestFingerprint := "sha256:0a1b"
  input := []

theorem exampleInsertable : Insertable exampleRuntime exampleSession (fun _ => none) ∅
    exampleRequest ⟨false, ⟨⟨"evidence.record", [.string "e1"]⟩, []⟩, []⟩ 0 where
  binding := rfl
  timeout := by decide
  live := rfl
  compiled := rfl
  unclaimed := fun _ _ => ⟨rfl, id⟩
  free := fun _ _ => ⟨rfl, id⟩
  distinct := by decide
  fits := ⟨2, rfl, by decide⟩

def exampleAppended : AppendResult :=
  firstResult exampleRuntime ⟨false, ⟨⟨"evidence.record", [.string "e1"]⟩, []⟩, []⟩ 0

/-- The request is committed once. -/
theorem exampleAppend : ∃ rows, Reachable (AppendTransaction exampleRuntime) (fun _ => none)
    (Server.atRest ⟨rows, [[⟨exampleRequest, .ok exampleAppended⟩]]⟩) := by
  rcases later_attempts (Server.atRest ⟨fun _ => none, []⟩) rfl
    (Server.heldByOthers_atRest _ 0 ▸ exampleInsertable) (.single (by decide)) with ⟨rows, run⟩
  refine ⟨rows, Relation.ReflTransGen.mono ?_ _ _ run⟩
  intro before after step
  exact step.mono fun program same => same ▸ .single exampleSession exampleRequest

/-- The request is sent again, and is answered from its replay row. -/
theorem exactly_once_appended : ∃ (server : EvidenceServer) (data : Json),
    server.committed.log = [[⟨exampleRequest, .ok exampleAppended⟩],
      [⟨exampleRequest, .ok ⟨data, true, []⟩⟩]] ∧
    ExactlyOnce exampleRuntime (fun _ => none) server := by
  obtain ⟨rows, first⟩ := exampleAppend
  have effect := run_effect first
  obtain ⟨data, stored, _⟩ := agrees_of_installed effect.installed effect.faithful
    (List.mem_singleton_self _) rfl rfl
  have live : exampleRequest.expired 0 = false := rfl
  have fits : 2 ≤ exampleSession.maxResultBytes := by decide
  have again : (singleAppend exampleRuntime exampleSession exampleRequest).May rows ∅
      (fun answers _ => answers = [⟨exampleRequest, .ok ⟨data, true, []⟩⟩])
      (fun _ _ => False) .fresh :=
    may_replay rfl live rfl (by decide) rfl (Set.notMem_empty _) stored rfl fits
  have admitted : AppendTransaction exampleRuntime
      (singleAppend exampleRuntime exampleSession exampleRequest) :=
    .single exampleSession exampleRequest
  obtain ⟨_, _, rfl, second⟩ := Server.run_alone admitted again
  refine ⟨_, _, rfl, exactly_once exampleRuntime ?_ (first.trans second)⟩
  intro key row found
  simp at found

end MeridianPostgreSQL.Evidence
