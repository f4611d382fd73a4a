import MeridianPostgreSQL.Evidence.Append
import MeridianPostgreSQL.Foundation.InsertOnly
import MeridianPostgreSQL.Foundation.Savepoints
import MeridianPostgreSQL.Foundation.TransactionSoundness

/-! # What appends commit

A committed transaction adds the rows of its successful insertions and nothing
else. Each answer is faithful to the rows the transaction leaves. -/

namespace MeridianPostgreSQL.Evidence

open ReadCommitted

variable (runtime : EvidenceRuntime)

/-! ## Answers -/

def requestKey (request : AppendRequest) : Option String :=
  match runtime.compile request with
  | .error _ => none
  | .ok commands => replayKey runtime commands request

/-- The replay row of an insertion. -/
def replayEntries (request : AppendRequest) (result : Option Json) :
    List (Entry EvidenceRow) :=
  match requestKey runtime request with
  | none => []
  | some key => [⟨.replay key, ⟨request.requestFingerprint, result⟩⟩]

def recordEntries (rows : List (RecordKey × RecordRow)) : List (Entry EvidenceRow) :=
  rows.map fun row => ⟨.record row.1, row.2⟩

/-- The rows an answer stands for: those of its insertion, if it made one. -/
def Answer.entries (answer : Answer) : List (Entry EvidenceRow) :=
  match answer.outcome with
  | .error _ => []
  | .ok result =>
      if result.replay then []
      else replayEntries runtime answer.request (some result.data) ++
        recordEntries result.rows

def entriesOf (answers : List Answer) : List (Entry EvidenceRow) :=
  answers.flatMap (Answer.entries runtime)

/-- An error raised before the replay key is compared. -/
def AppendError.Early : AppendError → Prop
  | .deadline message =>
      message = "operation deadline expired before PostgreSQL execution"
  | .invalid _ => True
  | .transactionState _ => True
  | .driver => True
  | _ => False

/-- The rows of a result are those of the compiled commands, in order, and its
data is what `RETURNING` gave for them. -/
def Inserted (request : AppendRequest) (result : AppendResult) : Prop :=
  ∃ commands, runtime.compile request = .ok commands ∧
    List.Forall₂ (fun command row => row.1 = command.key ∧
      row.2.values = command.values) commands.all result.rows ∧
    result.data = appendData runtime commands result.rows

/-- An answer agrees with the stored rows: a replay returns the stored result
of the same fingerprint. -/
structure Faithful (store : EvidenceStore) (answer : Answer) : Prop where
  inserted : ∀ result, answer.outcome = .ok result → result.replay = false →
    Inserted runtime answer.request result
  replayed : ∀ result, answer.outcome = .ok result → result.replay = true →
    ∃ key data, requestKey runtime answer.request = some key ∧
      store (.replay key) = some ⟨answer.request.requestFingerprint, some data⟩ ∧
      result.data = runtime.column.load data

theorem Faithful.extends {runtime : EvidenceRuntime} {store later : EvidenceStore}
    {answer : Answer} (faithful : Faithful runtime store answer)
    (extension : Extends store later) : Faithful runtime later answer where
  inserted := faithful.inserted
  replayed := by
    intro result outcome replay
    rcases faithful.replayed result outcome replay with ⟨key, data, named, found, equal⟩
    exact ⟨key, data, named, extension _ _ found, equal⟩

/-- The key has a fingerprint before a request of the transaction: it had one
when the transaction began, or an earlier request succeeded with it. -/
def Standing (start : EvidenceStore) (earlier : List Answer) (key : String)
    (fingerprint : String) : Prop :=
  (∃ row, start (.replay key) = some row ∧ row.requestFingerprint = fingerprint) ∨
    ∃ answer ∈ earlier, (∃ result, answer.outcome = .ok result) ∧
      requestKey runtime answer.request = some key ∧
      answer.request.requestFingerprint = fingerprint

/-- A failure is a conflict or an early error. -/
def Answer.Refused (answer : Answer) : Prop :=
  ∃ error, answer.outcome = .error error ∧ (error = replayConflict ∨ error.Early)

/-- Every request whose key has a different fingerprint is refused. -/
def RefusesMismatches (start : EvidenceStore) (answers : List Answer) : Prop :=
  ∀ ⦃earlier answer later⦄, answers = earlier ++ answer :: later →
    ∀ ⦃key fingerprint⦄, requestKey runtime answer.request = some key →
    Standing runtime start earlier key fingerprint →
    fingerprint ≠ answer.request.requestFingerprint → answer.Refused

theorem RefusesMismatches.snoc {runtime : EvidenceRuntime} {start : EvidenceStore}
    {answers : List Answer} {answer : Answer}
    (refuses : RefusesMismatches runtime start answers)
    (last : ∀ key fingerprint, requestKey runtime answer.request = some key →
      Standing runtime start answers key fingerprint →
      fingerprint ≠ answer.request.requestFingerprint → answer.Refused) :
    RefusesMismatches runtime start (answers ++ [answer]) := by
  intro earlier other later split key fingerprint named standing differs
  rcases extended_split split with ⟨_, rfl, rfl⟩ | ⟨rest, _, within⟩
  · exact last key fingerprint named standing differs
  · exact refuses within named standing differs

/-! ## The contract -/

/-- What one transaction of appends commits. -/
structure AppendEffect (before : EvidenceStore) (answers : List Answer)
    (after : EvidenceStore) : Prop where
  installed : Installed (entriesOf runtime answers) before after
  faithful : ∀ answer ∈ answers, Faithful runtime after answer

def evidenceContract : Contract EvidenceRow (List Answer) where
  Invariant := fun _ => True
  Effect := fun committed answers rows =>
    AppendEffect runtime committed.rows answers rows
  preserved := fun _ _ => trivial

variable {runtime} {session : EvidenceSession} {start : EvidenceStore}
  {workspace : Workspace EvidenceRow}
  {committed later : Committed EvidenceRow (List Answer)}

theorem extends_of_interferes {locks : Set EvidenceKey}
    (interferes : (evidenceContract runtime).Interferes locks committed later) :
    Extends committed.rows later.rows :=
  interferes.relates (fun before after => Extends before.rows after.rows) trivial
    (fun committed => .refl committed.rows) .trans
    fun _ effect => effect.installed.extension

theorem installs_of_interferes {entries : List (Entry EvidenceRow)}
    (installs : Installs entries workspace committed.rows)
    (interferes : (evidenceContract runtime).Interferes workspace.locks
      committed later) : Installs entries workspace later.rows :=
  installs.interfered fun _ locked => interferes.row_eq locked

/-- The transaction began over the rows of `start`, has answered so far and
added exactly the rows of its answers. -/
structure Appending (runtime : EvidenceRuntime) (start : EvidenceStore)
    (answers : List Answer) (workspace : Workspace EvidenceRow)
    (store : EvidenceStore) : Prop where
  extension : Extends start store
  installs : Installs (entriesOf runtime answers) workspace store
  faithful : ∀ answer ∈ answers,
    Faithful runtime (overlay workspace.writes store) answer
  refuses : RefusesMismatches runtime start answers

theorem overlay_extends {store : EvidenceStore} {next : EvidenceStore}
    (extension : Extends store next) :
    Extends (overlay workspace.writes store) (overlay workspace.writes next) := by
  intro key row found
  cases written : workspace.writes key with
  | none =>
      rw [overlay_of_unwritten written] at found ⊢
      exact extension key row found
  | some change =>
      rw [overlay, written] at found ⊢
      exact found

theorem Appending.interfered {answers : List Answer}
    (appending : Appending runtime start answers workspace committed.rows)
    (interferes : (evidenceContract runtime).Interferes workspace.locks
      committed later) :
    Appending runtime start answers workspace later.rows where
  extension := appending.extension.trans (extends_of_interferes interferes)
  installs := installs_of_interferes appending.installs interferes
  faithful := fun answer member => (appending.faithful answer member).extends
    (overlay_extends (extends_of_interferes interferes))
  refuses := appending.refuses

/-- A successful answer shows the row of its key. -/
theorem Appending.answered {answers : List Answer} {store : EvidenceStore}
    (appending : Appending runtime start answers workspace store) {answer : Answer}
    (member : answer ∈ answers) {result : AppendResult}
    (outcome : answer.outcome = .ok result) {key : String}
    (named : requestKey runtime answer.request = some key) :
    ∃ row, overlay workspace.writes store (.replay key) = some row ∧
      row.requestFingerprint = answer.request.requestFingerprint := by
  cases replay : result.replay with
  | true =>
      rcases (appending.faithful answer member).replayed result outcome replay with
        ⟨other, data, otherNamed, found, _⟩
      cases named.symm.trans otherNamed
      exact ⟨_, found, rfl⟩
  | false =>
      have listed : (⟨.replay key, ⟨answer.request.requestFingerprint,
          some result.data⟩⟩ : Entry EvidenceRow) ∈ entriesOf runtime answers := by
        apply List.mem_flatMap.mpr
        refine ⟨answer, member, ?_⟩
        simp [Answer.entries, outcome, replay, replayEntries, named]
      exact ⟨_, appending.installs.installed.mem listed, rfl⟩

/-- A fingerprint that stands is the one the transaction sees. -/
theorem Appending.standing_row {answers : List Answer} {store : EvidenceStore}
    (appending : Appending runtime start answers workspace store) {key : String}
    {fingerprint : String} (standing : Standing runtime start answers key fingerprint) :
    ∃ row, overlay workspace.writes store (.replay key) = some row ∧
      row.requestFingerprint = fingerprint := by
  rcases standing with ⟨row, stored, equal⟩ | ⟨answer, member, ⟨_, outcome⟩, named, equal⟩
  · have kept := appending.extension _ _ stored
    exact ⟨row, appending.installs.installed.extension _ _ kept, equal⟩
  · rw [← equal]
    exact appending.answered member outcome named

/-- An answer that stands for no rows joins the others. -/
theorem Appending.answer {answers : List Answer} {answer : Answer}
    {store : EvidenceStore}
    (appending : Appending runtime start answers workspace store)
    (empty : answer.entries runtime = [])
    (faithful : Faithful runtime (overlay workspace.writes store) answer)
    (refuses : ∀ key fingerprint, requestKey runtime answer.request = some key →
      Standing runtime start answers key fingerprint →
      fingerprint ≠ answer.request.requestFingerprint → answer.Refused) :
    Appending runtime start (answers ++ [answer]) workspace store where
  extension := appending.extension
  installs := by
    have installs := appending.installs
    simpa [entriesOf, empty] using installs
  faithful := by
    intro other member
    rcases List.mem_append.mp member with old | new
    · exact appending.faithful other old
    · cases List.mem_singleton.mp new
      exact faithful
  refuses := appending.refuses.snoc refuses

/-- What a failure needs: it is a conflict or an early error wherever another
fingerprint stands for the key. -/
def Reason (runtime : EvidenceRuntime) (start : EvidenceStore) (answers : List Answer)
    (request : AppendRequest) (error : AppendError) : Prop :=
  ∀ key fingerprint, requestKey runtime request = some key →
    Standing runtime start answers key fingerprint →
    fingerprint ≠ request.requestFingerprint →
    error = replayConflict ∨ error.Early

theorem Reason.early {answers : List Answer} {request : AppendRequest}
    {error : AppendError} (early : error.Early) :
    Reason runtime start answers request error :=
  fun _ _ _ _ _ => .inr early

/-- A failure stands for no rows. -/
theorem Appending.failed {answers : List Answer} {request : AppendRequest}
    {error : AppendError} {store : EvidenceStore}
    (appending : Appending runtime start answers workspace store)
    (reason : Reason runtime start answers request error) :
    Appending runtime start (answers ++ [⟨request, .error error⟩]) workspace
      store := by
  apply appending.answer rfl
  · constructor
    · exact fun _ absurd => nomatch absurd
    · exact fun _ absurd => nomatch absurd
  · exact fun key fingerprint named standing differs =>
      ⟨error, rfl, reason key fingerprint named standing differs⟩

/-! ## The savepoint body -/

theorem insertRecords_plain (request : AppendRequest) (deadline : Int)
    (commands : List AppendCommand) :
    (insertRecords request deadline commands).Plain := by
  induction commands with
  | nil => exact Program.plain_pure []
  | cons command rest induction =>
      unfold insertRecords
      apply Program.Plain.bind Program.plain_timestamp
      intro reading
      split
      · exact Program.plain_fail _
      · apply Program.Plain.bind (Program.plain_unlessRefused _)
        intro _
        apply Program.Plain.bind Program.plain_timestamp
        intro insertedAt
        apply Program.Plain.bind (Program.plain_write _ _)
        intro made
        cases made with
        | put row => exact Program.Plain.bind induction fun _ => Program.plain_pure _
        | keep | delete => exact Program.plain_fail _

theorem checkSize_plain (runtime : EvidenceRuntime) (session : EvidenceSession)
    (data : Json) : (checkSize runtime session data).Plain := by
  unfold checkSize
  split
  · exact Program.plain_fail _
  · split
    · exact Program.plain_fail _
    · exact Program.plain_pure ()

theorem appendRecords_plain (runtime : EvidenceRuntime) (session : EvidenceSession)
    (commands : AppendCommands) (request : AppendRequest) (deadline : Int)
    (key : Option String) :
    (appendRecords runtime session commands request deadline key).Plain := by
  unfold appendRecords
  apply Program.Plain.bind (insertRecords_plain _ _ _)
  intro rows
  apply Program.Plain.bind (checkSize_plain _ _ _)
  intro _
  cases key with
  | none => exact Program.plain_pure _
  | some key =>
      apply Program.Plain.bind (Program.plain_unlessRefused _)
      intro _
      exact Program.Plain.bind (Program.plain_write _ _) fun _ => Program.plain_pure _

theorem replayed_plain (runtime : EvidenceRuntime) (request : AppendRequest)
    (previous : Option ReplayRow) : (replayed runtime request previous).Plain := by
  unfold replayed
  repeat' split
  all_goals trivial

theorem appendBody_plain (runtime : EvidenceRuntime) (session : EvidenceSession)
    (commands : AppendCommands) (request : AppendRequest) (deadline : Int) :
    (appendBody runtime session commands request deadline).Plain := by
  unfold appendBody
  cases replayKey runtime commands request with
  | none => exact appendRecords_plain _ _ _ _ _ _
  | some key =>
      apply Program.Plain.bind (Program.plain_unlessRefused _)
      intro _
      apply Program.Plain.bind (Program.plain_write _ _)
      intro claimed
      cases claimed with
      | put row => exact appendRecords_plain _ _ _ _ _ _
      | keep | delete =>
          apply Program.Plain.bind (Program.plain_unlessRefused _)
          intro _
          exact Program.Plain.bind Program.plain_select fun _ => replayed_plain _ _ _

theorem yields_insertRecords (request : AppendRequest) (deadline : Int)
    (commands : List AppendCommand) {entries : List (Entry EvidenceRow)}
    (installs : Installs entries workspace committed.rows) :
    (evidenceContract runtime).Yields
      (insertRecords request deadline commands)
      (fun rows after final =>
        List.Forall₂ (fun command row => row.1 = command.key ∧
          row.2.values = command.values) commands rows ∧
        Installs (entries ++ recordEntries rows) after final.rows)
      workspace committed := by
  induction commands generalizing entries workspace committed with
  | nil =>
      refine ⟨.nil, ?_⟩
      simpa [recordEntries] using installs
  | cons command rest induction =>
      unfold insertRecords
      rw [Contract.yields_bind, Contract.yields_timestamp]
      intro reading
      split
      · exact Contract.yields_fail
      · rw [Contract.yields_bind]
        refine Contract.yields_unlessRefused ?_
        rw [Contract.yields_bind, Contract.yields_timestamp]
        intro insertedAt
        rw [Contract.yields_bind]
        refine Contract.yields_write.mpr ?_
        dsimp only
        cases found : overlay workspace.writes committed.rows (.record command.key) with
        | some row => exact fun later _ _ => Contract.yields_fail
        | none =>
            intro later interferes _
            have inserted := installs_of_interferes
              (installs.insert found ⟨command.values, insertedAt⟩) interferes
            dsimp only [insertRow]
            rw [Contract.yields_bind]
            refine (induction inserted).mono ?_
            rintro rows after final ⟨matched, grown⟩
            refine ⟨.cons ⟨rfl, rfl⟩ matched, ?_⟩
            simpa [recordEntries] using grown

theorem yields_checkSize (data : Json) (post : Unit → Workspace EvidenceRow →
      Committed EvidenceRow (List Answer) → Prop)
    (fits : ∀ size, runtime.encodedSize data = some size →
      size ≤ session.maxResultBytes → post () workspace committed) :
    (evidenceContract runtime).Yields (checkSize runtime session data) post workspace
      committed := by
  unfold checkSize
  split
  · exact Contract.yields_fail
  · rename_i size encoded
    split
    · exact Contract.yields_fail
    · exact fits size encoded (by omega)

/-- The encoded data is within the limit of the session. -/
def Sized (runtime : EvidenceRuntime) (session : EvidenceSession)
    (result : AppendResult) : Prop :=
  ∃ size, runtime.encodedSize result.data = some size ∧
    size ≤ session.maxResultBytes

/-- An insertion that passed every check under the savepoint. -/
structure Insertion (runtime : EvidenceRuntime) (session : EvidenceSession)
    (request : AppendRequest) (result : AppendResult) : Prop where
  first : result.replay = false
  inserted : Inserted runtime request result
  sized : Sized runtime session result

theorem yields_appendRecords {request : AppendRequest} {commands : AppendCommands}
    {key : Option String} (compiled : runtime.compile request = .ok commands)
    (named : requestKey runtime request = key) (deadline : Int)
    {entries : List (Entry EvidenceRow)}
    (installs : Installs (entries ++ replayEntries runtime request none) workspace
      committed.rows) :
    (evidenceContract runtime).Yields
      (appendRecords runtime session commands request deadline key)
      (fun result after final => Insertion runtime session request result ∧
        Installs (entries ++ (replayEntries runtime request (some result.data) ++
          recordEntries result.rows)) after final.rows)
      workspace committed := by
  unfold appendRecords
  rw [Contract.yields_bind]
  refine (yields_insertRecords request deadline commands.all installs).mono ?_
  rintro rows after middle ⟨matched, grown⟩
  dsimp only
  rw [Contract.yields_bind]
  refine yields_checkSize _ _ fun size encoded fits => ?_
  have insertion : Insertion runtime session request
      ⟨appendData runtime commands rows, false, rows⟩ :=
    ⟨rfl, ⟨commands, compiled, matched, rfl⟩, size, encoded, fits⟩
  cases key with
  | none =>
      refine ⟨insertion, ?_⟩
      simpa [replayEntries, named] using grown
  | some key =>
      dsimp only
      rw [Contract.yields_bind]
      refine Contract.yields_unlessRefused ?_
      rw [Contract.yields_bind]
      refine Contract.yields_write.mpr ?_
      have claimed : Installs (entries ++ (⟨.replay key,
          ⟨request.requestFingerprint, none⟩⟩ : Entry EvidenceRow) ::
          recordEntries rows) after middle.rows := by
        simpa [replayEntries, named] using grown
      have shown := claimed.installed.mem (List.mem_append_right _ (.head _))
      dsimp only at shown ⊢
      rw [shown]
      intro final interferes _
      refine ⟨insertion, ?_⟩
      have stored := installs_of_interferes (claimed.replace
        ⟨request.requestFingerprint, some (appendData runtime commands rows)⟩) interferes
      simpa [replayEntries, named, storeResult] using stored

/-! ## One append -/

theorem Appending.inserted {answers : List Answer} {request : AppendRequest}
    {result : AppendResult} {store : EvidenceStore}
    (appending : Appending runtime start answers workspace store)
    (insertion : Insertion runtime session request result)
    {after : Workspace EvidenceRow} {final : EvidenceStore}
    (installs : Installs (entriesOf runtime answers ++
      (replayEntries runtime request (some result.data) ++ recordEntries result.rows))
      after final)
    (extension : Extends store final)
    (unclaimed : ∀ key fingerprint, requestKey runtime request = some key →
      ¬ Standing runtime start answers key fingerprint) :
    Appending runtime start (answers ++ [⟨request, .ok result⟩]) after final where
  extension := appending.extension.trans extension
  installs := by
    simpa [entriesOf, Answer.entries, insertion.first] using installs
  faithful := by
    intro other member
    rcases List.mem_append.mp member with old | new
    · exact (appending.faithful other old).extends
        (appending.installs.installed.grown installs.installed extension)
    · cases List.mem_singleton.mp new
      constructor
      · rintro result ⟨⟩ _
        exact insertion.inserted
      · rintro result ⟨⟩ replay
        rw [insertion.first] at replay
        exact nomatch replay
  refuses := appending.refuses.snoc fun key fingerprint named standing =>
    absurd standing (unclaimed key fingerprint named)

/-- The answer of an append joins the answers so far, and its data fits. -/
def Answered (runtime : EvidenceRuntime) (session : EvidenceSession)
    (start : EvidenceStore) (answers : List Answer) (request : AppendRequest)
    (result : AppendResult) (workspace : Workspace EvidenceRow)
    (committed : Committed EvidenceRow (List Answer)) : Prop :=
  Appending runtime start (answers ++ [⟨request, .ok result⟩]) workspace
    committed.rows ∧ (result.replay = false → Sized runtime session result)

theorem wp_appendRecords {request : AppendRequest} {commands : AppendCommands}
    {key : Option String} (compiled : runtime.compile request = .ok commands)
    (named : requestKey runtime request = key) (deadline : Int)
    {answers : List Answer} {begun : Workspace EvidenceRow}
    {before : EvidenceStore} (appending : Appending runtime start answers begun before)
    (extension : Extends before committed.rows)
    (unclaimed : ∀ key fingerprint, requestKey runtime request = some key →
      ¬ Standing runtime start answers key fingerprint)
    (installs : Installs (entriesOf runtime answers ++
      replayEntries runtime request none) workspace committed.rows) :
    (evidenceContract runtime).Wp
      (appendRecords runtime session commands request deadline key)
      (Answered runtime session start answers request)
      (fun error _ _ => Reason runtime start answers request error) workspace committed := by
  refine Contract.Wp.mono (Contract.Wp.framed (appendRecords_plain _ _ _ _ _ _)
    (yields_appendRecords compiled named deadline installs)) ?_ ?_
  · rintro result after final ⟨⟨insertion, grown⟩, framed⟩
    have toFinal := extension.trans (extends_of_interferes framed.interferes)
    exact ⟨appending.inserted insertion grown toFinal unclaimed,
      fun _ => insertion.sized⟩
  · exact fun _ _ _ _ key fingerprint named standing =>
      absurd standing (unclaimed key fingerprint named)

/-- A replay returns what is stored, and finds nothing to insert. -/
theorem wp_replayed {request : AppendRequest} {key : String} {row : ReplayRow}
    (named : requestKey runtime request = some key) {answers : List Answer}
    (appending : Appending runtime start answers workspace committed.rows)
    (found : overlay workspace.writes committed.rows (.replay key) = some row) :
    (evidenceContract runtime).Wp (replayed runtime request (some row))
      (Answered runtime session start answers request)
      (fun error _ _ => Reason runtime start answers request error) workspace committed := by
  have conflict : Reason runtime start answers request replayConflict :=
    fun _ _ _ _ _ => .inl rfl
  unfold replayed
  dsimp only
  split
  · exact conflict
  · rename_i data stored
    split
    · exact conflict
    · rename_i matching
      refine ⟨appending.answer (by simp [Answer.entries]) ?_ ?_, fun first => by cases first⟩
      · constructor
        · rintro result ⟨⟩ first
          cases first
        · rintro result ⟨⟩ _
          refine ⟨key, data, named, ?_, rfl⟩
          rw [found, ← stored, ← not_not.mp matching]
      · intro other fingerprint otherNamed standing differs
        cases named.symm.trans otherNamed
        rcases appending.standing_row standing with ⟨stood, shown, equal⟩
        cases found.symm.trans shown
        exact absurd (equal.symm.trans (not_not.mp matching)) differs

theorem requestKey_of_compiled {request : AppendRequest} {commands : AppendCommands}
    (compiled : runtime.compile request = .ok commands) :
    requestKey runtime request = replayKey runtime commands request := by
  rw [requestKey, compiled]

theorem wp_appendBody {request : AppendRequest} {commands : AppendCommands}
    (compiled : runtime.compile request = .ok commands) (deadline : Int)
    {answers : List Answer}
    (appending : Appending runtime start answers workspace committed.rows) :
    (evidenceContract runtime).Wp
      (appendBody runtime session commands request deadline)
      (Answered runtime session start answers request)
      (fun error _ _ => Reason runtime start answers request error) workspace committed := by
  have named := requestKey_of_compiled compiled
  unfold appendBody
  cases keyed : replayKey runtime commands request with
  | none =>
      rw [keyed] at named
      refine wp_appendRecords compiled named deadline appending (.refl _) ?_ ?_
      · intro other fingerprint otherNamed
        exact nomatch named.symm.trans otherNamed
      · simpa [replayEntries, named] using appending.installs
  | some key =>
      rw [keyed] at named
      dsimp only
      rw [Contract.wp_bind]
      refine Contract.wp_unlessRefused (Reason.early trivial) ?_
      rw [Contract.wp_bind]
      refine Contract.wp_write.mpr ?_
      dsimp only
      cases found : overlay workspace.writes committed.rows (.replay key) with
      | none =>
          intro later interferes _
          have unclaimed : ∀ fingerprint,
              ¬ Standing runtime start answers key fingerprint := by
            intro fingerprint standing
            rcases appending.standing_row standing with ⟨row, shown, _⟩
            exact nomatch found.symm.trans shown
          have claimed := installs_of_interferes (appending.installs.insert found
            ⟨request.requestFingerprint, none⟩) interferes
          refine wp_appendRecords compiled named deadline appending
            (extends_of_interferes interferes) ?_ ?_
          · intro other fingerprint otherNamed
            cases named.symm.trans otherNamed
            exact unclaimed fingerprint
          · simpa [replayEntries, named, insertRow] using claimed
      | some row =>
          intro later interferes _
          dsimp only [insertRow]
          rw [Contract.wp_bind]
          refine Contract.wp_unlessRefused (Reason.early trivial) ?_
          rw [Contract.wp_bind, Contract.wp_select]
          have laterAppending := appending.interfered interferes
          have shown := overlay_extends
            (extends_of_interferes interferes) _ _ found
          intro final toFinal _
          have finalShown := overlay_extends
            (extends_of_interferes toFinal) _ _ shown
          rw [Workspace.record_keep, shown]
          exact wp_replayed named (laterAppending.interfered toFinal) finalShown

theorem Appending.withSaved {answers : List Answer} {store : EvidenceStore}
    (appending : Appending runtime start answers workspace store)
    (saved : List (Writes EvidenceRow × Set EvidenceKey)) :
    Appending runtime start answers { workspace with saved := saved } store where
  extension := appending.extension
  installs :=
    ⟨appending.installs.installed, appending.installs.locked, appending.installs.written⟩
  faithful := appending.faithful
  refuses := appending.refuses

/-- A replay whose data is refused afterwards is a failure. -/
theorem Appending.refused {answers : List Answer} {request : AppendRequest}
    {result : AppendResult} {store : EvidenceStore}
    (appending : Appending runtime start (answers ++ [⟨request, .ok result⟩])
      workspace store) (replay : result.replay = true) (error : AppendError) :
    Appending runtime start (answers ++ [⟨request, .error error⟩]) workspace
      store where
  extension := appending.extension
  installs := by
    have installs := appending.installs
    simp only [entriesOf, List.flatMap_append, List.flatMap_singleton, Answer.entries,
      replay, if_true] at installs ⊢
    exact installs
  faithful := by
    intro other member
    rcases List.mem_append.mp member with old | new
    · exact appending.faithful other (List.mem_append_left _ old)
    · cases List.mem_singleton.mp new
      constructor <;> exact fun _ absurd => nomatch absurd
  refuses := by
    have earlier : RefusesMismatches runtime start answers := by
      intro before answer after split key fingerprint named standing differs
      exact appending.refuses (by rw [split, List.append_assoc, List.cons_append]) named
        standing differs
    apply earlier.snoc
    intro key fingerprint named standing differs
    rcases appending.refuses rfl named standing differs with ⟨_, absurd, _⟩
    exact nomatch absurd

theorem wp_checkSize {request : AppendRequest} {result : AppendResult}
    {answers : List Answer}
    (answered : Answered runtime session start answers request result workspace committed) :
    (evidenceContract runtime).Wp
      (checkSize runtime session result.data >>= fun _ => pure result)
      (fun result after final => Appending runtime start
        (answers ++ [⟨request, .ok result⟩]) after final.rows)
      (fun error after final => Appending runtime start
        (answers ++ [⟨request, .error error⟩]) after final.rows)
      workspace committed := by
  rcases answered with ⟨appending, sized⟩
  rw [Contract.wp_bind]
  unfold checkSize
  by_cases first : result.replay = false
  · rcases sized first with ⟨size, encoded, fits⟩
    rw [encoded]
    dsimp only
    rw [if_neg (by omega)]
    exact appending
  · have replay : result.replay = true := by simpa using first
    split
    · exact appending.refused replay _
    · split
      · exact appending.refused replay _
      · exact appending

/-- Every outcome of an append, caught or not, joins the answers so far. -/
theorem wp_execute (transactional : Bool) (request : AppendRequest)
    {answers : List Answer}
    (appending : Appending runtime start answers workspace committed.rows) :
    (evidenceContract runtime).Wp (execute runtime session transactional request)
      (fun result after final => Appending runtime start
        (answers ++ [⟨request, .ok result⟩]) after final.rows)
      (fun error after final => Appending runtime start
        (answers ++ [⟨request, .error error⟩]) after final.rows)
      workspace committed := by
  unfold execute
  rw [Contract.wp_bind, Contract.wp_timestamp]
  intro reading
  split
  · exact appending.failed (Reason.early rfl)
  split
  · exact appending.failed (Reason.early trivial)
  cases compiled : runtime.compile request with
  | error message => exact appending.failed (Reason.early trivial)
  | ok commands =>
      dsimp only
      rw [Contract.wp_bind]
      unfold executeAppend
      split
      · exact appending.failed (Reason.early trivial)
      rw [Contract.wp_bind, Contract.wp_timestamp]
      intro started
      refine Contract.wp_transaction
        (fun error _ => Reason runtime start answers request error)
        (appendBody_plain _ _ _ _ _).balanced ?_ ?_
      · refine (wp_appendBody compiled _ (appending.withSaved _)).mono ?_ ?_
        · intro result after later answered
          exact wp_checkSize ⟨answered.1.withSaved _, answered.2⟩
        · exact fun _ _ _ reason => reason
      · intro error middle later first reason second _
        exact (appending.interfered (first.trans second)).failed reason

/-! ## Transactions -/

theorem Appending.effect {answers : List Answer} {store : EvidenceStore}
    (appending : Appending runtime start answers workspace store) :
    AppendEffect runtime store answers (overlay workspace.writes store) :=
  ⟨appending.installs.installed, appending.faithful⟩

theorem Appending.fresh {store : EvidenceStore} (extension : Extends start store) :
    Appending runtime start [] .fresh store where
  extension := extension
  installs := .fresh store
  faithful := fun _ absent => nomatch absent
  refuses := by
    intro earlier answer later split
    simp at split

theorem yields_explicitAppends (requests : List AppendRequest) {answers : List Answer}
    (appending : Appending runtime start answers workspace committed.rows) :
    (evidenceContract runtime).Yields (explicitAppends runtime session requests)
      (fun more after final => Appending runtime start (answers ++ more) after
        final.rows)
      workspace committed := by
  induction requests generalizing answers workspace committed with
  | nil => simpa [explicitAppends] using appending
  | cons request rest induction =>
      have continued : ∀ {outcome after final},
          Appending runtime start (answers ++ [⟨request, outcome⟩]) after final.rows →
          (evidenceContract runtime).Yields
            (explicitAppends runtime session rest >>= fun more => pure (⟨request, outcome⟩ :: more))
            (fun more after final => Appending runtime start (answers ++ more) after
              final.rows)
            after final := by
        intro outcome after final answered
        rw [Contract.yields_bind]
        refine (induction answered).mono ?_
        intro more after final appended
        simpa using appended
      unfold explicitAppends
      rw [Contract.yields_bind]
      refine Contract.wp_attempt.mpr ?_
      exact (wp_execute true request appending).mono
        (fun result after final => continued) fun error after final => continued

/-- What a session without a transaction leaves, committed or not. -/
theorem wp_singleAppend (request : AppendRequest)
    (extension : Extends start committed.rows) :
    (evidenceContract runtime).Wp (singleAppend runtime session request)
      (fun answers after final => Appending runtime start answers after final.rows)
      (fun error after final => Appending runtime start [⟨request, .error error⟩]
        after final.rows)
      .fresh committed := by
  unfold singleAppend
  rw [Contract.wp_bind]
  exact wp_execute false request (.fresh extension)

/-- What a transaction leaves when it finishes, however long after its begin. -/
theorem yields_transaction {program : EvidenceProgram (List Answer)}
    (transaction : AppendTransaction runtime program)
    (extension : Extends start committed.rows) :
    (evidenceContract runtime).Yields program
      (fun answers after final => Appending runtime start answers after final.rows)
      .fresh committed := by
  cases transaction with
  | single session request =>
      exact (wp_singleAppend request extension).mono (fun _ _ _ appending => appending)
        fun _ _ _ _ => trivial
  | explicit session requests => exact yields_explicitAppends requests (.fresh extension)

theorem transaction_certified {program : EvidenceProgram (List Answer)}
    (transaction : AppendTransaction runtime program) :
    (evidenceContract runtime).Certifies program := by
  intro committed _
  refine (yields_transaction transaction (.refl committed.rows)).mono ?_
  intro answers after final appending
  exact appending.effect

end MeridianPostgreSQL.Evidence
