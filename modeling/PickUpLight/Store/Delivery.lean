import PickUpLight.Store.Histories

/-!
# Delivery of video pushes

In a run whose turns are all in order each push is delivered exactly once. `Delivering` is the
invariant of the runs in order: what a fetch has selected stays as it is until the fetch deletes
it, no two fetches hold the pushes of one user, and only a fetch that is about to delete has
delivered rows that are still there.
-/

namespace PickUpLight.Store

open PickUpLight.Theory PickUpLight.Theory.Roster PickUpLight.Control PickUpLight.Wire

variable {H : Type} {db : Database H} {lib : Nlohmann} {tasks : List Task}

/-! ### Pushes that are held -/

/-- The user whose pushes a fetch holds: it has selected them and has still to delete them. -/
def Pushing.holds : Pushing → Option String
  | look _ userId _ _ _ => some userId
  | delete userId => some userId
  | _ => none

/-- Thread `k` holds the pushes of a user, and will go on. -/
def Holding (lib : Nlohmann) (s : Pushings) (k : ℕ) (userId : String) : Prop :=
  ∃ st, s.stages[k]? = some st ∧ (st.next lib).isSome ∧ st.holds = some userId

/-- The history of a fetch that holds pushes: it has selected once, and has not deleted. -/
theorem Pushing.Told.holds {st : Pushing} {h : History} (htold : st.Told h) {userId : String}
    (hholds : st.holds = some userId) : ∃ rows, rows ≠ [] ∧ selection userId rows ∈ h ∧
      (∀ userId' rows', selection userId' rows' ∈ h → userId' = userId ∧ rows' = rows) ∧
      ∀ userId' ok, (⟨.query_execute (.deleteVideoPush userId'), ok⟩ : (e : Effect) × e.Answer) ∉
      h := by
  cases st with
  | look server userId rest video videos =>
    cases hholds
    obtain ⟨done, hcore, hne, -⟩ := htold
    refine ⟨done ++ rest, hne, ?_, fun userId' rows' hmem => ?_, fun userId' ok hmem => ?_⟩
    · rw [← selection_mem_core, hcore]
      exact List.mem_singleton_self _
    · rw [← selection_mem_core, hcore, List.mem_singleton, selection_inj] at hmem
      exact hmem
    · rw [← delete_mem_core, hcore, List.mem_singleton] at hmem
      cases hmem
  | delete userId =>
    cases hholds
    obtain ⟨rows, videos, ok, hcore, hne, -⟩ := htold
    refine ⟨rows, hne, ?_, fun userId' rows' hmem => ?_, fun userId' ok hmem => ?_⟩
    · rw [← selection_mem_core, hcore]
      exact List.mem_cons_self
    · rw [← selection_mem_core, hcore] at hmem
      simpa using hmem
    · rw [← delete_mem_core, hcore] at hmem
      simp [selection, reply] at hmem
  | _ => cases hholds

/-- A thread that holds pushes is between its query and its deletion. -/
theorem Traced.open_of_holding {s : Pushings} (hs : Traced lib tasks s) {k : ℕ} {userId : String}
    (h : Holding lib s k userId) : Open ((Pushing.stages lib).threads s) k userId := by
  obtain ⟨st, hk, hlive, hholds⟩ := h
  obtain ⟨rows, hne, hmem, -, hdelete⟩ := (hs k st hk).1.holds hholds
  obtain ⟨⟨e, after⟩, he⟩ := Option.isSome_iff_exists.mp hlive
  refine ⟨⟨rows, hne, mem_historyOf.mp hmem⟩, fun ok hmem => ?_, e, ?_⟩
  · exact hdelete userId ok (mem_historyOf.mpr hmem)
  · exact (Pushing.stages lib).asks_threads hk he

/-- Who holds pushes after a turn of thread `k`. -/
theorem holding_set {s : Pushings} {k : ℕ} {st st' : Pushing} (hk : s.stages[k]? = some st)
    {t : Tables} {log : List Entry} {j : ℕ} {userId : String} :
    Holding lib { store := t, stages := s.stages.set k st', log := log } j userId ↔
      (k = j ∧ (st'.next lib).isSome ∧ st'.holds = some userId) ∨
        (k ≠ j ∧ Holding lib s j userId) := by
  simp only [Holding, getElem?_set_iff hk]
  constructor
  · rintro ⟨stage, ⟨hj, rfl⟩ | ⟨hj, hstage⟩, hlive, hholds⟩
    · exact Or.inl ⟨hj, hlive, hholds⟩
    · exact Or.inr ⟨hj, stage, hstage, hlive, hholds⟩
  · rintro (⟨hj, hlive, hholds⟩ | ⟨hj, stage, hstage, hlive, hholds⟩)
    · exact ⟨st', Or.inl ⟨hj, rfl⟩, hlive, hholds⟩
    · exact ⟨stage, Or.inr ⟨hj, hstage⟩, hlive, hholds⟩

/-- What holds while all turns are in order. -/
structure Delivering (lib : Nlohmann) (s : Pushings) : Prop where
  nodup : ((s.store.rows .VideoPush).map Row.number).Nodup
  below : ∀ row ∈ s.store.rows .VideoPush, row.number < s.store.next
  held : ∀ k userId rows, Holding lib s k userId → selection userId rows ∈ historyOf s.log k →
    rows = (s.store.pushes userId).map videoColumn
  alone : ∀ j k userId, Holding lib s j userId → Holding lib s k userId → j = k
  known : ∀ k row, Delivers (historyOf s.log k) row → row.number < s.store.next
  once : ∀ j k row, Delivers (historyOf s.log j) row → Delivers (historyOf s.log k) row → j = k
  deleting : ∀ k, ∀ row ∈ s.store.rows .VideoPush, Delivers (historyOf s.log k) row →
    ∃ userId, s.stages[k]? = some (.delete userId)
  replied : ∀ (k : ℕ) userId, s.stages[k]? = some (.delete userId) →
    ∃ videos, reply videos true ∈ historyOf s.log k

section Turns

variable {s : Pushings} {k : ℕ} {e : Effect} {r : e.Answer}

/-- A turn of thread `k`: what is to be shown of the tables, of its new stage and of what it
has delivered. -/
theorem Delivering.turn (hs : Delivering lib s) {st st' : Pushing} {t : Tables}
    (hk : s.stages[k]? = some st) (hnodup : ((t.rows .VideoPush).map Row.number).Nodup)
    (hbelow : ∀ row ∈ t.rows .VideoPush, row.number < t.next) (hnext : s.store.next ≤ t.next)
    (hpushes : ∀ j userId, k ≠ j → Holding lib s j userId → t.pushes userId = s.store.pushes userId)
    (hheld : ∀ userId rows, (st'.next lib).isSome → st'.holds = some userId →
      selection userId rows ∈ historyOf s.log k ++ [⟨e, r⟩] →
      rows = (t.pushes userId).map videoColumn)
    (halone : ∀ j userId, k ≠ j → (st'.next lib).isSome → st'.holds = some userId →
      ¬ Holding lib s j userId)
    (hdelivers : ∀ row, Delivers (historyOf s.log k ++ [⟨e, r⟩]) row →
      Delivers (historyOf s.log k) row ∨
        row.number < t.next ∧ ∀ j, k ≠ j → ¬ Delivers (historyOf s.log j) row)
    (hrows : ∀ row ∈ t.rows .VideoPush, row ∈ s.store.rows .VideoPush ∨ s.store.next ≤ row.number)
    (hdeleting : ∀ row ∈ t.rows .VideoPush, Delivers (historyOf s.log k ++ [⟨e, r⟩]) row →
      ∃ userId, st' = .delete userId)
    (hreplied : ∀ userId, st' = .delete userId →
      ∃ videos, reply videos true ∈ historyOf s.log k ++ [⟨e, r⟩]) :
    Delivering lib
      { store := t, stages := s.stages.set k st', log := s.log ++ [(k, ⟨e, r⟩)] } := by
  have hself := historyOf_append_self s.log k ⟨e, r⟩
  have hother : ∀ j, k ≠ j → historyOf (s.log ++ [(k, ⟨e, r⟩)]) j = historyOf s.log j :=
    fun j hj => historyOf_append_ne s.log hj _
  constructor
  case nodup => exact hnodup
  case below => exact hbelow
  case held =>
    intro j userId rows hj hmem
    rcases (holding_set hk).mp hj with ⟨rfl, hlive, hholds⟩ | ⟨hkj, hj⟩
    · rw [hself] at hmem
      exact hheld userId rows hlive hholds hmem
    · rw [hother j hkj] at hmem
      rw [hs.held j userId rows hj hmem, hpushes j userId hkj hj]
  case alone =>
    intro i j userId hi hj
    rcases (holding_set hk).mp hi with ⟨rfl, hlive, hholds⟩ | ⟨hki, hi⟩ <;>
      rcases (holding_set hk).mp hj with ⟨hkj, hlive', hholds'⟩ | ⟨hkj, hj⟩
    · exact hkj
    · exact absurd hj (halone j userId hkj hlive hholds)
    · exact absurd hi (halone i userId hki hlive' hholds')
    · exact hs.alone i j userId hi hj
  case known =>
    intro j row hj
    by_cases hkj : k = j
    · subst hkj
      rw [hself] at hj
      rcases hdelivers row hj with hj | hj
      · exact Nat.lt_of_lt_of_le (hs.known k row hj) hnext
      · exact hj.1
    · rw [hother j hkj] at hj
      exact Nat.lt_of_lt_of_le (hs.known j row hj) hnext
  case once =>
    have hnew : ∀ j row, k ≠ j → Delivers (historyOf s.log k ++ [⟨e, r⟩]) row →
        Delivers (historyOf s.log j) row → False := by
      intro j row hkj hk' hj
      rcases hdelivers row hk' with hold | hfresh
      · exact hkj (hs.once k j row hold hj)
      · exact hfresh.2 j hkj hj
    intro i j row hi hj
    by_cases hki : k = i <;> by_cases hkj : k = j
    · exact hki.symm.trans hkj
    · subst hki
      rw [hself] at hi
      rw [hother j hkj] at hj
      exact absurd hj (hnew j row hkj hi)
    · subst hkj
      rw [hself] at hj
      rw [hother i hki] at hi
      exact absurd hi (hnew i row hki hj)
    · rw [hother i hki] at hi
      rw [hother j hkj] at hj
      exact hs.once i j row hi hj
  case deleting =>
    intro j row hrow hj
    by_cases hkj : k = j
    · subst hkj
      rw [hself] at hj
      obtain ⟨userId, hst'⟩ := hdeleting row hrow hj
      exact ⟨userId, (getElem?_set_iff hk).mpr (Or.inl ⟨rfl, hst'⟩)⟩
    · rw [hother j hkj] at hj
      rcases hrows row hrow with hrow | hrow
      · obtain ⟨userId, hj⟩ := hs.deleting j row hrow hj
        exact ⟨userId, (getElem?_set_iff hk).mpr (Or.inr ⟨hkj, hj⟩)⟩
      · exact absurd (hs.known j row hj) (Nat.not_lt.mpr hrow)
  case replied =>
    intro j userId hj
    rcases (getElem?_set_iff hk).mp hj with ⟨rfl, hst'⟩ | ⟨hkj, hj⟩
    · rw [hself]
      exact hreplied userId hst'
    · rw [hother j hkj]
      exact hs.replied j userId hj

/-- A turn that neither changes pushes nor delivers any. -/
theorem Delivering.quiet (hs : Delivering lib s) {st st' : Pushing} {t : Tables}
    (hk : s.stages[k]? = some st) (hst : ∀ userId, st ≠ .delete userId)
    (hst' : ∀ userId, st' ≠ .delete userId) (ht : t.rows .VideoPush = s.store.rows .VideoPush)
    (hnext : s.store.next ≤ t.next)
    (hheld : ∀ userId rows, (st'.next lib).isSome → st'.holds = some userId →
      selection userId rows ∈ historyOf s.log k ++ [⟨e, r⟩] →
      rows = (s.store.pushes userId).map videoColumn)
    (halone : ∀ j userId, k ≠ j → (st'.next lib).isSome → st'.holds = some userId →
      ¬ Holding lib s j userId)
    (hdelivers : ∀ row, Delivers (historyOf s.log k ++ [⟨e, r⟩]) row →
      Delivers (historyOf s.log k) row) :
    Delivering lib
      { store := t, stages := s.stages.set k st', log := s.log ++ [(k, ⟨e, r⟩)] } := by
  have hpushes : ∀ userId, t.pushes userId = s.store.pushes userId := by
    intro userId
    rw [Tables.pushes, Tables.pushes, ht]
  apply hs.turn hk (by rw [ht]; exact hs.nodup)
  · intro row hrow
    rw [ht] at hrow
    exact Nat.lt_of_lt_of_le (hs.below row hrow) hnext
  · exact hnext
  · exact fun j userId _ _ => hpushes userId
  · intro userId rows hlive hholds hmem
    rw [hpushes]
    exact hheld userId rows hlive hholds hmem
  · exact halone
  · exact fun row hrow => Or.inl (hdelivers row hrow)
  · intro row hrow
    rw [ht] at hrow
    exact Or.inl hrow
  · intro row hrow hdel
    rw [ht] at hrow
    obtain ⟨userId, hdelete⟩ := hs.deleting k row hrow (hdelivers row hdel)
    rw [hk] at hdelete
    exact absurd (Option.some.inj hdelete) (hst userId)
  · exact fun userId h => absurd h (hst' userId)

/-! #### Deliveries -/

/-- An entry that is neither a selection nor a reply delivers nothing. -/
theorem Delivers.of_append {h : History} {x : (e : Effect) × e.Answer} {row : Row}
    (hsel : ∀ userId rows, x ≠ selection userId rows) (hrep : ∀ videos, x ≠ reply videos true)
    (hdel : Delivers (h ++ [x]) row) : Delivers h row := by
  obtain ⟨userId, rows, videos, hmem, hmem', hvideos, hrow⟩ := hdel
  refine ⟨userId, rows, videos, ?_, ?_, hvideos, hrow⟩
  · rcases List.mem_append.mp hmem with hmem | hmem
    · exact hmem
    · exact absurd (List.mem_singleton.mp hmem).symm (hsel userId rows)
  · rcases List.mem_append.mp hmem' with hmem | hmem
    · exact hmem
    · exact absurd (List.mem_singleton.mp hmem).symm (hrep videos)

/-- What has nothing to do with fetches delivers nothing. -/
theorem not_delivers_of_unrelated {h : History} (hh : ∀ x ∈ h, Unrelated x.1) (row : Row) :
    ¬ Delivers h row := by
  rintro ⟨userId, rows, videos, hmem, -⟩
  exact hh _ hmem

/-- Rows of the table with one number are one row. -/
theorem Delivering.row_eq (hs : Delivering lib s) {row row' : Row}
    (h : row ∈ s.store.rows .VideoPush) (h' : row' ∈ s.store.rows .VideoPush)
    (hn : row.number = row'.number) : row = row' :=
  List.inj_on_of_nodup_map hs.nodup h h' hn

@[simp] theorem mem_pushes {t : Tables} {userId : String} {row : Row} :
    row ∈ t.pushes userId ↔ row ∈ t.rows .VideoPush ∧ userOf row = userId := by
  simp [Tables.pushes]

/-- A fetch that holds the pushes of a user has selected the rows of the table that are his. -/
theorem Delivering.selected_iff (hs : Delivering lib s) {userId : String} {rows : List Row}
    (hk : Holding lib s k userId) (hrows : selection userId rows ∈ historyOf s.log k) {n : ℕ} :
    n ∈ rows.map Row.number ↔ ∃ row ∈ s.store.pushes userId, row.number = n := by
  rw [hs.held k userId rows hk hrows]
  simp [videoColumn]

theorem holding_delete {userId : String} (hk : s.stages[k]? = some (.delete userId)) :
    Holding lib s k userId :=
  ⟨.delete userId, hk, rfl, rfl⟩

/-- A row that is still there and has been delivered is for the user whose pushes are to be
deleted. -/
theorem Delivering.user_of_delivers (hs : Delivering lib s) (htr : Traced lib tasks s)
    {userId : String} (hk : s.stages[k]? = some (.delete userId)) {row : Row}
    (hrow : row ∈ s.store.rows .VideoPush)
    (hdel : Delivers (historyOf s.log k) row) : userOf row = userId := by
  obtain ⟨userId', rows, videos, hmem, -, -, hnumber⟩ := hdel
  obtain ⟨_, -, -, huniq, -⟩ := (htr k _ hk).1.holds rfl
  obtain ⟨huser, -⟩ := huniq userId' rows hmem
  rw [huser] at hmem
  obtain ⟨row', hrow', hn⟩ := (hs.selected_iff (holding_delete hk) hmem).mp hnumber
  obtain ⟨hrow', huser'⟩ := mem_pushes.mp hrow'
  rw [← hs.row_eq hrow' hrow hn]
  exact huser'

/-- What a fetch holds nobody else has delivered. -/
theorem Delivering.not_delivered (hs : Delivering lib s) (htr : Traced lib tasks s)
    {userId : String} (hk : Holding lib s k userId) {row : Row}
    (hrow : ∃ row' ∈ s.store.pushes userId, row'.number = row.number) {j : ℕ}
    (hj : k ≠ j) : ¬ Delivers (historyOf s.log j) row := by
  obtain ⟨row', hrow', hn⟩ := hrow
  obtain ⟨hrow', huser⟩ := mem_pushes.mp hrow'
  intro hdel
  have hdel' : Delivers (historyOf s.log j) row' := by
    obtain ⟨u, rows, videos, h₁, h₂, h₃, h₄⟩ := hdel
    exact ⟨u, rows, videos, h₁, h₂, h₃, hn ▸ h₄⟩
  obtain ⟨userId', hdelete⟩ := hs.deleting j row' hrow' hdel'
  have huser' := hs.user_of_delivers htr hdelete hrow' hdel'
  rw [huser] at huser'
  subst huser'
  exact hj (hs.alone k j userId hk (holding_delete hdelete))

/-! #### The turns -/

theorem changes_videoPush {command : Command} (h : command.changes = some .VideoPush) :
    (∃ userId videoId, command = .insertVideoPush userId videoId) ∨
      ∃ userId, command = .deleteVideoPush userId := by
  cases command <;> simp_all [Command.changes]

/-- A change of another table. -/
theorem Tables.apply_ne (t : Tables) {table : Table} (h : table ≠ .VideoPush) (change : Change) :
    (t.apply table change).rows .VideoPush = t.rows .VideoPush ∧
      t.next ≤ (t.apply table change).next := by
  cases change <;> simp [Tables.apply, Function.update_of_ne h.symm]

/-- An effect that has nothing to do with fetches leaves the pushes as they are, or inserts one. -/
theorem perform_unrelated (db : Database H) (t : Tables) {e : Effect} (he : Unrelated e)
    (m : Meeting H) :
    ((db.perform t e m).1.rows .VideoPush = t.rows .VideoPush ∧
      t.next ≤ (db.perform t e m).1.next) ∨
      ∃ userId videoId, e = .query_execute (.insertVideoPush userId videoId) := by
  cases e with
  | query_execute command =>
    simp only [Database.perform]
    cases hchanges : command.changes with
    | none => exact Or.inl ⟨rfl, Nat.le_refl _⟩
    | some table =>
      by_cases htable : table = .VideoPush
      · subst htable
        rcases changes_videoPush hchanges with ⟨userId, videoId, rfl⟩ | ⟨userId, rfl⟩
        · exact Or.inr ⟨userId, videoId, rfl⟩
        · exact he.elim
      · exact Or.inl (t.apply_ne htable _)
  | _ => exact Or.inl ⟨rfl, Nat.le_refl _⟩

/-- A push that is inserted. -/
theorem pushes_insert (t : Tables) (userId videoId : String) :
    (t.apply .VideoPush (.insert [[userId, videoId]])).rows .VideoPush =
        t.rows .VideoPush ++ [{ number := t.next, cells := [userId, videoId] }] ∧
      (t.apply .VideoPush (.insert [[userId, videoId]])).next = t.next + 1 := by
  simp [Tables.apply, numbered]

/-- The tables after a turn of an upload: the pushes are as they were, or there is one more, for a
user whose pushes nobody holds. -/
theorem upload_tables {m : Meeting H} (he : Unrelated e)
    (hasks : ((Pushing.stages lib).threads s).asks k e)
    (hg : Orderly db tasks ((Pushing.stages lib).threads s) (k, m)) :
    ((db.perform s.store e m).1.rows .VideoPush = s.store.rows .VideoPush ∧
        s.store.next ≤ (db.perform s.store e m).1.next) ∨
      ∃ userId videoId,
        (db.perform s.store e m).1 = s.store.apply .VideoPush (.insert [[userId, videoId]]) ∧
          ∀ j, ¬ Open ((Pushing.stages lib).threads s) j userId := by
  rcases perform_unrelated db s.store he m with hsame | ⟨userId, videoId, rfl⟩
  · exact Or.inl hsame
  rcases hg.insert userId videoId hasks with hnothing | ⟨hinsert, hopen⟩
  · have hperform := congrArg Prod.fst (Database.perform_execute rfl (Prod.ext hnothing rfl))
    have hstore := hperform.trans (Tables.apply_nothing _ _)
    exact Or.inl
      ⟨congrArg (fun t => t.rows .VideoPush) hstore,
      Nat.le_of_eq (congrArg Tables.next hstore).symm⟩
  · have hperform := congrArg Prod.fst (Database.perform_execute rfl (Prod.ext hinsert rfl))
    exact Or.inr ⟨userId, videoId, hperform, hopen⟩

/-- The turn of an upload. -/
theorem Delivering.upload (hs : Delivering lib s) (htr : Traced lib tasks s) {m : Meeting H}
    {after : e.Answer → Handler Unit} (hk : s.stages[k]? = some (.upload (.call e after)))
    (hg : Orderly db tasks ((Pushing.stages lib).threads s) (k, m)) :
    Delivering lib
      { store := (db.perform s.store e m).1
        stages := s.stages.set k (.upload (after (db.perform s.store e m).2))
        log := s.log ++ [(k, ⟨e, (db.perform s.store e m).2⟩)] } ∧
      ∀ row ∈ s.store.rows .VideoPush, row ∈ (db.perform s.store e m).1.rows .VideoPush := by
  obtain ⟨⟨⟨he, -⟩, hhist⟩, -⟩ := htr k _ hk
  have hnone : ∀ row, ¬ Delivers (historyOf s.log k ++ [⟨e, (db.perform s.store e m).2⟩]) row := by
    apply not_delivers_of_unrelated
    intro x hx
    rcases List.mem_append.mp hx with hx | hx
    · exact hhist x hx
    · rw [List.mem_singleton.mp hx]
      exact he
  have hasks := (Pushing.stages lib).asks_threads hk rfl
  rcases upload_tables he hasks hg with ⟨hrows, hnext⟩ | ⟨userId, videoId, hstore, hopen⟩
  · refine ⟨hs.quiet hk nofun nofun hrows hnext nofun nofun fun row h => absurd h (hnone row), ?_⟩
    rw [hrows]
    exact fun row hrow => hrow
  obtain ⟨hrows, hnext⟩ := pushes_insert s.store userId videoId
  rw [← hstore] at hrows hnext
  have hmem : ∀ row, row ∈ (db.perform s.store e m).1.rows .VideoPush ↔
      row ∈ s.store.rows .VideoPush ∨
        row = { number := s.store.next, cells := [userId, videoId] } := by
    intro row
    rw [hrows, List.mem_append, List.mem_singleton]
  refine ⟨?_, fun row hrow => (hmem row).mpr (Or.inl hrow)⟩
  apply hs.turn hk
  · rw [hrows, List.map_append, List.nodup_append]
    refine ⟨hs.nodup, List.nodup_singleton _, fun n hn n' hn' => ?_⟩
    obtain ⟨row, hrow, rfl⟩ := List.mem_map.mp hn
    rw [List.mem_singleton.mp hn']
    exact Nat.ne_of_lt (hs.below row hrow)
  · intro row hrow
    rw [hnext]
    rcases (hmem row).mp hrow with hrow | rfl
    · exact Nat.lt_succ_of_lt (hs.below row hrow)
    · exact Nat.lt_succ_self _
  · rw [hnext]
    exact Nat.le_succ _
  · intro j userId' _ hj
    have hne : userId ≠ userId' := by
      rintro rfl
      exact hopen j (htr.open_of_holding hj)
    rw [Tables.pushes, hrows, List.filter_append]
    simp [Tables.pushes, userOf, hne]
  · exact nofun
  · exact nofun
  · exact fun row h => absurd h (hnone row)
  · intro row hrow
    rcases (hmem row).mp hrow with hrow | rfl
    · exact Or.inl hrow
    · exact Or.inr (Nat.le_refl _)
  · exact fun row _ h => absurd h (hnone row)
  · exact nofun

/-- The turn in which a fetch selects. -/
theorem Delivering.select (hs : Delivering lib s) (htr : Traced lib tasks s) {m : Meeting H}
    {server : Server} {userId : String} (hk : s.stages[k]? = some (.select server userId))
    (hg : Orderly db tasks ((Pushing.stages lib).threads s) (k, m)) {rows : Option (List Row)}
    (hrows : db.store s.store m.db (Command.selectVideoPush userId).text = rows) :
    Delivering lib
      { store := s.store
        stages := s.stages.set k (Pushing.selected server userId rows)
        log := s.log ++ [(k, ⟨.query_store (.selectVideoPush userId), rows⟩)] } := by
  have hcore : core (historyOf s.log k) = [] := (htr k _ hk).1
  have hnone : ∀ row,
      ¬ Delivers (historyOf s.log k ++ [⟨.query_store (.selectVideoPush userId), rows⟩]) row := by
    rintro row ⟨_, _, videos, -, hreply, -⟩
    rcases List.mem_append.mp hreply with hreply | hreply
    · rw [← reply_mem_core, hcore] at hreply
      exact List.not_mem_nil hreply
    · cases List.mem_singleton.mp hreply
  have hasks := (Pushing.stages lib).asks_threads hk rfl
  rcases hg.select userId hasks with hnil | ⟨hsome, halone⟩
  · obtain rfl : rows = none := hrows.symm.trans hnil
    exact hs.quiet hk nofun nofun rfl (Nat.le_refl _) nofun nofun fun row h => absurd h (hnone row)
  obtain rfl : rows = some ((s.store.pushes userId).map videoColumn) := hrows.symm.trans hsome
  cases hpushes : s.store.pushes userId with
  | nil =>
    rw [hpushes] at hnone
    exact hs.quiet hk nofun nofun rfl (Nat.le_refl _) nofun nofun fun row h => absurd h (hnone row)
  | cons row rest =>
    rw [hpushes] at hnone
    refine hs.quiet hk nofun nofun rfl (Nat.le_refl _) ?_ ?_ fun row h => absurd h (hnone row)
    · intro userId' rows' _ hholds hmem
      cases hholds
      rcases List.mem_append.mp hmem with hmem | hmem
      · rw [← selection_mem_core, hcore] at hmem
        exact absurd hmem List.not_mem_nil
      · rw [hpushes]
        exact (selection_inj.mp (List.mem_singleton.mp hmem)).2
    · intro j userId' _ _ hholds hj
      cases hholds
      exact halone (hpushes ▸ List.cons_ne_nil row rest) j (htr.open_of_holding hj)

/-- The turn in which a fetch looks for a publisher. -/
theorem Delivering.look (hs : Delivering lib s) {server : Server} {userId videoId : String}
    {row : Row} {rest : List Row} {video videos : Json}
    (hk : s.stages[k]? = some (.look server userId (row :: rest) video videos))
    (hcell : row.cells[0]? = some videoId) (rows : Option (List Row)) :
    Delivering lib
      { store := s.store
        stages := s.stages.set k
          (Pushing.looked server userId rest (video.set "videoId" (.str videoId)) videos rows)
        log := s.log ++ [(k, ⟨.query_store (.selectPublisher videoId), rows⟩)] } := by
  have hlive : Holding lib s k userId := ⟨_, hk, by simp [Pushing.next, hcell], rfl⟩
  have hlooked :
      (∀ u, Pushing.looked server userId rest (video.set "videoId" (.str videoId)) videos rows ≠
        .delete u) ∧
      ∀ u, (Pushing.looked server userId rest (video.set "videoId" (.str videoId)) videos
        rows).holds = some u → u = userId := by
    rcases rows with _ | _ | ⟨publisher, _⟩
    · exact ⟨(fun _ h => by cases h), fun u h => by cases h; rfl⟩
    · exact ⟨(fun _ h => by cases h), fun u h => by cases h; rfl⟩
    · simp only [Pushing.looked]
      split
      · exact ⟨(fun _ h => by cases h), fun u h => by cases h; rfl⟩
      · exact ⟨(fun _ h => by cases h), fun _ h => by cases h⟩
  refine hs.quiet hk (fun _ h => by cases h) hlooked.1 rfl (Nat.le_refl _) ?_ ?_ ?_
  · intro u selected _ hholds hmem
    rw [hlooked.2 u hholds] at hmem ⊢
    rcases List.mem_append.mp hmem with hmem | hmem
    · exact hs.held k userId selected hlive hmem
    · cases List.mem_singleton.mp hmem
  · intro j u hkj _ hholds hj
    rw [hlooked.2 u hholds] at hj
    exact hkj (hs.alone k j userId hlive hj)
  · exact fun row => Delivers.of_append (fun _ _ h => by cases h) fun _ h => by cases h

/-- The turn in which a fetch sends its reply. -/
theorem Delivering.send (hs : Delivering lib s) (htr : Traced lib tasks s) {m : Meeting H}
    {server : Server} {userId : String} {video videos : Json}
    (hk : s.stages[k]? = some (.look server userId [] video videos))
    (hfits : Pushing.fits lib videos = true)
    (hg : Orderly db tasks ((Pushing.stages lib).threads s) (k, m)) {ok : Bool}
    (hok : m.answer (.send (pushPacket videos)) = ok) :
    Delivering lib
      { store := s.store
        stages := s.stages.set k (Pushing.sent server (.delete userId) ok)
        log := s.log ++ [(k, reply videos ok)] } := by
  obtain ⟨⟨done, hcore, hne, hvideos⟩, task, htask, hserver, -⟩ := htr k _ hk
  rw [List.append_nil] at hcore
  have hnext : (Pushing.look server userId [] video videos).next lib = some
      ⟨.send (pushPacket videos), Pushing.sent server (.delete userId)⟩ := by
    simp [Pushing.next, hfits]
  have hlive : Holding lib s k userId := ⟨_, hk, by rw [hnext]; rfl, rfl⟩
  have hselected : selection userId done ∈ historyOf s.log k := by
    rw [← selection_mem_core, hcore]
    exact List.mem_singleton_self _
  cases ok with
  | false =>
    -- Only `write` fails to send, and throws.
    have hboost : server = .boost := by
      cases server with
      | boost => rfl
      | epoll =>
        have hsent := hg.send task videos htask hserver ((Pushing.stages lib).asks_threads hk hnext)
        cases hok.symm.trans hsent
    have hfailed : Pushing.sent server (.delete userId) false = .failed := by
      rw [hboost]; rfl
    rw [hfailed]
    refine hs.quiet hk nofun nofun rfl (Nat.le_refl _) nofun nofun fun row => ?_
    exact Delivers.of_append nofun fun _ h => by cases h
  | true =>
    have hdelete : Pushing.sent server (.delete userId) true = .delete userId := by
      simp [Pushing.sent]
    rw [hdelete]
    -- What is delivered now is what the fetch holds.
    have hdelivers : ∀ row, Delivers (historyOf s.log k ++ [reply videos true]) row →
        ∃ row' ∈ s.store.pushes userId, row'.number = row.number := by
      rintro row ⟨userId', rows, videos', hmem, -, -, hnumber⟩
      rcases List.mem_append.mp hmem with hmem | hmem
      · have hsel := hmem
        rw [← selection_mem_core, hcore, List.mem_singleton, selection_inj] at hsel
        rw [hsel.2] at hnumber
        exact (hs.selected_iff hlive hselected).mp hnumber
      · exact absurd (List.mem_singleton.mp hmem) selection_ne_reply
    apply hs.turn hk hs.nodup hs.below (Nat.le_refl _)
    · exact fun _ _ _ _ => rfl
    · intro u rows _ hholds hmem
      cases hholds
      rcases List.mem_append.mp hmem with hmem | hmem
      · exact hs.held k userId rows hlive hmem
      · exact absurd (List.mem_singleton.mp hmem) selection_ne_reply
    · intro j u hkj _ hholds hj
      cases hholds
      exact hkj (hs.alone k j userId hlive hj)
    · intro row hrow
      obtain ⟨row', hrow', hn⟩ := hdelivers row hrow
      refine Or.inr ⟨?_, fun j hkj => hs.not_delivered htr hlive ⟨row', hrow', hn⟩ hkj⟩
      rw [← hn]
      exact hs.below row' (mem_pushes.mp hrow').1
    · exact fun row hrow => Or.inl hrow
    · exact fun row _ _ => ⟨userId, rfl⟩
    · exact fun _ _ => ⟨videos, List.mem_append_right _ (List.mem_singleton_self _)⟩

/-- The turn in which a fetch that has found nothing says so. -/
theorem Delivering.empty (hs : Delivering lib s) (htr : Traced lib tasks s) {server : Server}
    (hk : s.stages[k]? = some (.empty server)) (ok : Bool) :
    Delivering lib
      { store := s.store
        stages := s.stages.set k (Pushing.sent server .returned ok)
        log := s.log ++ [(k, reply .null ok)] } := by
  obtain ⟨⟨userId, hcore⟩, -⟩ := htr k _ hk
  have hsent : (∀ u, Pushing.sent server .returned ok ≠ .delete u) ∧
      (Pushing.sent server .returned ok).holds = none := by
    unfold Pushing.sent
    split
    · exact ⟨nofun, rfl⟩
    · exact ⟨nofun, rfl⟩
  refine hs.quiet hk nofun hsent.1 rfl (Nat.le_refl _) ?_ ?_ ?_
  · intro u rows _ hholds
    rw [hsent.2] at hholds
    cases hholds
  · intro j u _ _ hholds
    rw [hsent.2] at hholds
    cases hholds
  · rintro row ⟨userId', rows, videos, hmem, -, -, hnumber⟩
    rcases List.mem_append.mp hmem with hmem | hmem
    · rw [← selection_mem_core, hcore, List.mem_singleton, selection_inj] at hmem
      rw [hmem.2] at hnumber
      exact absurd hnumber List.not_mem_nil
    · exact absurd (List.mem_singleton.mp hmem) selection_ne_reply

/-- A deletion of the pushes of a user. -/
theorem mem_delete {t : Tables} {userId : String} {meets : Row → Bool}
    (hmeets : ∀ row ∈ t.rows .VideoPush, meets row = true ↔ userOf row = userId) {row : Row} :
    row ∈ (t.apply .VideoPush (.delete meets)).rows .VideoPush ↔
      row ∈ t.rows .VideoPush ∧ userOf row ≠ userId := by
  simp only [Tables.apply, Function.update_self, List.mem_filter, Bool.not_eq_eq_eq_not,
    Bool.not_true]
  constructor
  · rintro ⟨hrow, hno⟩
    exact ⟨hrow, fun huser => by rw [(hmeets row hrow).mpr huser] at hno; cases hno⟩
  · rintro ⟨hrow, hno⟩
    exact ⟨hrow, Bool.eq_false_iff.mpr fun hyes => hno ((hmeets row hrow).mp hyes)⟩

/-- The turn in which a fetch deletes. -/
theorem Delivering.delete (hs : Delivering lib s) (htr : Traced lib tasks s) {userId : String}
    (hk : s.stages[k]? = some (.delete userId)) {meets : Row → Bool}
    (hmeets : ∀ row ∈ s.store.rows .VideoPush, meets row = true ↔ userOf row = userId) (ok : Bool) :
    Delivering lib
      { store := s.store.apply .VideoPush (.delete meets)
        stages := s.stages.set k .returned
        log := s.log ++ [(k, ⟨.query_execute (.deleteVideoPush userId), ok⟩)] } := by
  have hsub : ∀ row ∈ (s.store.apply .VideoPush (.delete meets)).rows .VideoPush,
      row ∈ s.store.rows .VideoPush := fun row hrow => ((mem_delete hmeets).mp hrow).1
  have hsame :
      ∀ row, Delivers (historyOf s.log k ++ [⟨.query_execute (.deleteVideoPush userId), ok⟩]) row →
        Delivers (historyOf s.log k) row :=
    fun row => Delivers.of_append (fun _ _ h => by cases h) fun _ h => by cases h
  apply hs.turn hk
  · refine List.Nodup.sublist ?_ hs.nodup
    apply List.Sublist.map
    simp only [Tables.apply, Function.update_self]
    exact List.filter_sublist
  · exact fun row hrow => hs.below row (hsub row hrow)
  · exact Nat.le_refl _
  · intro j userId' hkj hj
    have hne : userId' ≠ userId := by
      rintro rfl
      exact hkj (hs.alone k j userId' (holding_delete hk) hj)
    simp only [Tables.pushes, Tables.apply, Function.update_self, List.filter_filter]
    apply List.filter_congr
    intro row hrow
    by_cases huser : userOf row = userId'
    · have hno : meets row = false := by
        rw [Bool.eq_false_iff]
        exact fun hyes => hne (huser.symm.trans ((hmeets row hrow).mp hyes))
      simp [huser, hno]
    · simp [huser]
  · intro _ _ _ hholds
    cases hholds
  · intro _ _ _ _ hholds
    cases hholds
  · exact fun row hrow => Or.inl (hsame row hrow)
  · exact fun row hrow => Or.inl (hsub row hrow)
  · intro row hrow hdel
    obtain ⟨hrow, huser⟩ := (mem_delete hmeets).mp hrow
    exact absurd (hs.user_of_delivers htr hk hrow (hsame row hdel)) huser
  · intro _ hst
    cases hst

/-- What a deletion deletes has been delivered to its user. -/
theorem Delivering.deleted (hs : Delivering lib s) (htr : Traced lib tasks s) {userId : String}
    (hk : s.stages[k]? = some (.delete userId)) {row : Row} (hrow : row ∈ s.store.rows .VideoPush)
    (huser : userOf row = userId) : Delivers (historyOf s.log k) row := by
  obtain ⟨⟨rows, videos, ok, hcore, -, hvideos⟩, -⟩ := htr k _ hk
  obtain ⟨videos', hreply⟩ := hs.replied k userId hk
  have hselected : selection userId rows ∈ historyOf s.log k := by
    rw [← selection_mem_core, hcore]
    exact List.mem_cons_self
  have hvideos' : videos' = videos := by
    have hmem := hreply
    rw [← reply_mem_core, hcore] at hmem
    rcases List.mem_cons.mp hmem with hmem | hmem
    · exact absurd hmem.symm selection_ne_reply
    · exact (reply_inj.mp (List.mem_singleton.mp hmem)).1
  rw [hvideos'] at hreply
  refine ⟨userId, rows, videos, hselected, hreply, hvideos, ?_⟩
  rw [hs.selected_iff (holding_delete hk) hselected]
  exact ⟨row, mem_pushes.mpr ⟨hrow, huser⟩, rfl⟩

/-- A row of `before` is still there, or it is in a reply to its user. -/
def Kept (lib : Nlohmann) (tasks : List Task) (before : Tables) (s : Pushings) : Prop :=
  ∀ row ∈ before.rows .VideoPush, row ∈ s.store.rows .VideoPush ∨
    ∃ k task, tasks[k]? = some task ∧ task.user lib = some (userOf row) ∧
      Delivers (historyOf s.log k) row

theorem Delivers.append {h : History} {row : Row} (hdel : Delivers h row)
    (x : (e : Effect) × e.Answer) : Delivers (h ++ [x]) row := by
  obtain ⟨userId, rows, videos, hmem, hmem', hvideos, hrow⟩ := hdel
  exact ⟨userId, rows, videos, List.mem_append_left _ hmem, List.mem_append_left _ hmem', hvideos,
    hrow⟩

/-- What is delivered stays delivered. -/
theorem Kept.turn {before t : Tables} {st : Pushing} (hs : Kept lib tasks before s)
    (ht : ∀ row ∈ s.store.rows .VideoPush, row ∈ t.rows .VideoPush ∨
      ∃ k task, tasks[k]? = some task ∧ task.user lib = some (userOf row) ∧
        Delivers (historyOf s.log k) row) :
    Kept lib tasks before
      { store := t, stages := s.stages.set k st, log := s.log ++ [(k, ⟨e, r⟩)] } := by
  have hmono : ∀ j row, Delivers (historyOf s.log j) row →
      Delivers (historyOf (s.log ++ [(k, ⟨e, r⟩)]) j) row := by
    intro j row hdel
    by_cases hkj : k = j
    · subst hkj
      rw [historyOf_append_self]
      exact hdel.append _
    · rw [historyOf_append_ne s.log hkj]
      exact hdel
  intro row hrow
  rcases hs row hrow with hrow | ⟨j, task, htask, huser, hdel⟩
  · rcases ht row hrow with hrow | ⟨j, task, htask, huser, hdel⟩
    · exact Or.inl hrow
    · exact Or.inr ⟨j, task, htask, huser, hmono j row hdel⟩
  · exact Or.inr ⟨j, task, htask, huser, hmono j row hdel⟩

/-- **The step**: a turn in order keeps the invariant and loses no row. -/
theorem Delivering.step (hs : Delivering lib s) (htr : Traced lib tasks s) {turn : ℕ × Meeting H}
    {s' : Pushings} (hg : Orderly db tasks ((Pushing.stages lib).threads s) turn)
    (h : (Pushing.stages lib).staged db.perform s turn = some s') :
    Delivering lib s' ∧ ∀ before, Kept lib tasks before s → Kept lib tasks before s' := by
  obtain ⟨k, m⟩ := turn
  obtain ⟨st, e, after, hk, he, rfl⟩ := ((Pushing.stages lib).staged_eq_some _).mp h
  cases st with
  | upload p =>
    cases p with
    | ret a => cases he
    | fail => cases he
    | call e' after' =>
      cases he
      obtain ⟨hdelivering, hrows⟩ := hs.upload htr hk hg
      exact ⟨hdelivering, fun before hkept => hkept.turn fun row hrow => Or.inl (hrows row hrow)⟩
  | select server userId =>
    cases he
    exact ⟨hs.select htr hk hg rfl, fun before hkept => hkept.turn fun row hrow => Or.inl hrow⟩
  | look server userId rest video videos =>
    cases rest with
    | nil =>
      simp only [Pushing.stages, Pushing.next, Option.ite_none_right_eq_some] at he
      obtain ⟨hfits, he⟩ := he
      cases he
      exact ⟨hs.send htr hk hfits hg rfl,
        fun before hkept => hkept.turn fun row hrow => Or.inl hrow⟩
    | cons row rest =>
      simp only [Pushing.stages, Pushing.next] at he
      split at he
      · rename_i videoId hcell
        cases he
        exact ⟨hs.look hk hcell _, fun before hkept => hkept.turn fun row hrow => Or.inl hrow⟩
      · cases he
  | delete userId =>
    cases he
    obtain ⟨meets, hdelete, hmeets⟩ := hg.delete userId ((Pushing.stages lib).asks_threads hk rfl)
    have hperform := congrArg Prod.fst (Database.perform_execute rfl (Prod.ext hdelete rfl))
    have hstore : (db.perform s.store (.query_execute (.deleteVideoPush userId)) m).1 =
        s.store.apply .VideoPush (.delete meets) := hperform
    rw [hstore]
    refine ⟨hs.delete htr hk hmeets _, fun before hkept => hkept.turn fun row hrow => ?_⟩
    by_cases huser : userOf row = userId
    · obtain ⟨-, task, htask, hof⟩ := htr k _ hk
      exact Or.inr ⟨k, task, htask, huser ▸ hof, hs.deleted htr hk hrow huser⟩
    · exact Or.inl ((mem_delete hmeets).mpr ⟨hrow, huser⟩)
  | empty server =>
    simp only [Pushing.stages, Pushing.next, Option.ite_none_right_eq_some] at he
    obtain ⟨-, he⟩ := he
    cases he
    exact ⟨hs.empty htr hk _, fun before hkept => hkept.turn fun row hrow => Or.inl hrow⟩
  | returned => cases he
  | failed => cases he

end Turns

/-! ### Runs -/

/-- The rows of `VideoPush` have different numbers, all given before. -/
structure Tables.Numbered (t : Tables) : Prop where
  nodup : ((t.rows .VideoPush).map Row.number).Nodup
  below : ∀ row ∈ t.rows .VideoPush, row.number < t.next

/-- Requests that start. -/
theorem delivering_start {t : Tables} (ht : t.Numbered) :
    Delivering lib { store := t, stages := tasks.map (Task.start lib), log := [] } := by
  have hstart : ∀ (k : ℕ) st, (tasks.map (Task.start lib))[k]? = some st → st.holds = none := by
    intro k st hk
    rw [List.getElem?_map, Option.map_eq_some_iff] at hk
    obtain ⟨task, -, rfl⟩ := hk
    cases task with
    | upload server fileInfo fileData => rfl
    | fetch server buf =>
      simp only [Task.start]
      split <;> rfl
  have hholding : ∀ k userId, ¬ Holding lib
      { store := t, stages := tasks.map (Task.start lib), log := [] } k userId := by
    rintro k userId ⟨st, hk, -, hholds⟩
    rw [hstart k st hk] at hholds
    cases hholds
  have hdelivers : ∀ k row, ¬ Delivers (historyOf [] k) row := by
    rintro k row ⟨_, _, _, hmem, -⟩
    exact List.not_mem_nil hmem
  constructor
  case nodup => exact ht.nodup
  case below => exact ht.below
  case held => exact fun k userId _ hk => absurd hk (hholding k userId)
  case alone => exact fun j k userId hj => absurd hj (hholding j userId)
  case known => exact fun k row hk => absurd hk (hdelivers k row)
  case once => exact fun j k row hj => absurd hj (hdelivers j row)
  case deleting => exact fun k row _ hk => absurd hk (hdelivers k row)
  case replied =>
    intro k userId hk
    cases hstart k _ hk

/-- **Video pushes are delivered exactly once** in every run of uploads and fetches whose turns are
all in order: a row that is in `VideoPush` at some point of the run is, at its end, still
there or in a reply to its user, and it is not in two replies. -/
theorem exactlyOnce_of_run (htasks : ∀ task ∈ tasks, task.IsPush lib) {t : Tables} (ht : t.Numbered)
    {turns turns' : List (ℕ × Meeting H)} {s s' : Handlers}
    (hg : db.handlers.Guarded (Orderly db tasks) (pushing lib tasks t) (turns ++ turns'))
    (hrun : db.handlers.exec (pushing lib tasks t) turns = some s)
    (hrun' : db.handlers.exec s turns' = some s') : ExactlyOnce lib tasks s s' := by
  have hstart : pushing lib tasks t = (Pushing.stages lib).threads
      { store := t, stages := tasks.map (Task.start lib), log := [] } := by
    simp only [pushing, Handlers.start, Stages.threads, Pushing.stages, List.map_map]
    congr 1
    exact List.map_congr_left fun task htask => (Task.program_start lib (htasks task htask)).symm
  rw [Machine.guarded_append_iff _ hrun] at hg
  rw [hstart] at hg hrun
  have hstep :
      ∀ before s turn s', (Traced lib tasks s ∧ Delivering lib s ∧ Kept lib tasks before s) →
        Orderly db tasks ((Pushing.stages lib).threads s) turn →
        (Pushing.stages lib).staged db.perform s turn = some s' →
        Traced lib tasks s' ∧ Delivering lib s' ∧ Kept lib tasks before s' := by
    rintro before s turn s' ⟨htr, hs, hkept⟩ hg h
    obtain ⟨hs', hkept'⟩ := hs.step htr hg h
    exact ⟨htr.step h, hs', hkept' before hkept⟩
  obtain ⟨s₁, ⟨htr, hs, -⟩, rfl⟩ := (Pushing.stages lib).exec_inv db.perform (hstep t)
    ⟨traced_start t, delivering_start ht, fun row hrow => Or.inl hrow⟩ hg.1 hrun
  obtain ⟨s₂, ⟨-, hs', hkept⟩, rfl⟩ := (Pushing.stages lib).exec_inv db.perform (hstep s₁.store)
    ⟨htr, hs, fun row hrow => Or.inl hrow⟩ hg.2 hrun'
  exact ⟨hkept, fun row _ j k => hs'.once j k row⟩

/-! ### An upload and a fetch -/

namespace OneFollower

/-- The message of a fetch for user `1`. -/
def fetchInfo : List UInt8 := "\x7b\"infotype\":13,\"userId\":\"1\"\x7d".toUTF8.toList

/-- The description of a video of user `2`. -/
def videoInfo : List UInt8 :=
  "\x7b\"filetype\":3,\"id\":\"2\",\"profile\":\"p\",\"suffix\":\".mp4\"\x7d".toUTF8.toList

/-- The library, on the messages of this example. -/
def nlohmann : Nlohmann where
  parse bytes :=
    if bytes = fetchInfo then some (.obj [("infotype", .int 13), ("userId", .str "1")])
    else if bytes = videoInfo then
      some (.obj
        [("filetype", .int 3), ("id", .str "2"), ("profile", .str "p"), ("suffix", .str ".mp4")])
    else none
  dump
    | .obj [("videoId", .str id)] => ("\x7b\"videoId\":\"" ++ id ++ "\"\x7d").toUTF8.toList
    | .obj [("infotype", .int 13), ("videos", .null)] =>
      "\x7b\"infotype\":13,\"videos\":null\x7d".toUTF8.toList
    | .obj [("infotype", .int 13), ("videos", .arr [.obj [("videoId", .str id)]])] =>
      ("\x7b\"infotype\":13,\"videos\":[\x7b\"videoId\":\"" ++ id ++ "\"\x7d]\x7d").toUTF8.toList
    | .obj [("infotype", .int 13),
      ("videos", .arr [.obj [("videoId", .str id), ("publisherId", .str u)]])] =>
      ("\x7b\"infotype\":13,\"videos\":[\x7b\"publisherId\":\"" ++ u ++ "\",\"videoId\":\"" ++ id ++
        "\"\x7d]\x7d").toUTF8.toList
    | _ => []

/-- A database, on the statements of this example; it can be out of reach. -/
def database : Database Bool where
  store t up text :=
    if !up then none
    else if text = "select videoId from VideoPush where userId = 1" then
      some ((t.pushes "1").map videoColumn)
    else if text = "select followerId from Follow where userId = 2" then
      some (((t.rows .Follow).filter fun row => row.cells.headD "" = "2").map videoColumn)
    else if text = "select publisherId from Video where id = 1" then
      some (((t.rows .Video).filter fun row => row.cells.headD "" = "1").map videoColumn)
    else if text = "select publisherId from Video where id = 7" then
      some (((t.rows .Video).filter fun row => row.cells.headD "" = "7").map videoColumn)
    else none
  execute _ up text :=
    if !up then (.nothing, false)
    else if text = "insert into Video(id, publisherId, videoSuffix, profile, time) " ++
        "values('1', '2', '.mp4', 'p',(select now()))" then
      (.insert [["1", "2", ".mp4", "p", "NULL", "2025-01-01 00:00:00"]], true)
    else if text = "insert into VideoPush Values('1', '1')" then (.insert [["1", "1"]], true)
    else if text = "delete from VideoPush where userId = 1" then
      (.delete fun row => userOf row = "1", true)
    else (.nothing, false)

/-- User `1` follows user `2`, and these are the pushes. -/
def tables (pushes : List Row) : Tables where
  rows
    | .Follow => [{ number := 0, cells := ["2", "1"] }]
    | .VideoPush => pushes
    | _ => []
  next := 2

/-- A fetch by user `1` and an upload by user `2`. -/
def requests : List Task := [.fetch .boost fetchInfo, .upload .boost videoInfo [0]]

/-- The numbers of the rows that fetches have selected. -/
def selectedNumbers (log : List Entry) : List ℕ :=
  log.flatMap fun entry => match entry with
    | (_, ⟨.query_store (.selectVideoPush _), some rows⟩) => rows.map Row.number
    | _ => []

theorem selected_of_delivers {log : List Entry} {k : ℕ} {row : Row}
    (h : Delivers (historyOf log k) row) :
    row.number ∈ selectedNumbers log := by
  obtain ⟨userId, rows, -, hmem, -, -, hnumber⟩ := h
  exact List.mem_flatMap.mpr ⟨_, mem_historyOf.mp hmem, hnumber⟩

/-- The fetch selects the push of video `7`; then the upload is done, up to its push of video
`1`. -/
def race : List (ℕ × Meeting Bool) := [0, 1, 1, 1, 1, 1, 1].map fun k => (k, calm true)

/-- The rest of the fetch. -/
def fetchRest : List (ℕ × Meeting Bool) := [0, 0, 0].map fun k => (k, calm true)

/-- **A push is lost**: it is inserted while the fetch is between its query and its deletion, and
is deleted without having been in a reply. -/
theorem race_loses : ∃ s s' row,
    database.handlers.exec
      (pushing nlohmann requests (tables [{ number := 1, cells := ["1", "7"] }]))
      race = some s ∧
    database.handlers.exec s fetchRest = some s' ∧
    row ∈ s.store.rows .VideoPush ∧ row ∉ s'.store.rows .VideoPush ∧
    (∀ k, ¬ Delivers (historyOf s'.log k) row) ∧ ¬ ExactlyOnce nlohmann requests s s' := by
  have hrun : (database.handlers.exec
      (pushing nlohmann requests (tables [{ number := 1, cells := ["1", "7"] }])) race).map
        (fun s => (s.store.rows .VideoPush, (database.handlers.exec s fetchRest).map
          fun s' => (s'.store.rows .VideoPush, selectedNumbers s'.log))) =
      some ([{ number := 1, cells := ["1", "7"] }, { number := 3, cells := ["1", "1"] }],
        some ([], [1])) := by
    decide +kernel
  obtain ⟨s, hs, hout⟩ := Option.map_eq_some_iff.mp hrun
  obtain ⟨hrows, hout⟩ := Prod.mk.inj hout
  obtain ⟨s', hs', hout⟩ := Option.map_eq_some_iff.mp hout
  obtain ⟨hrows', hlog⟩ := Prod.mk.inj hout
  have hgone : ∀ k, ¬ Delivers (historyOf s'.log k) { number := 3, cells := ["1", "1"] } := by
    intro k h
    have hmem := selected_of_delivers h
    rw [hlog] at hmem
    simp at hmem
  refine ⟨s, s', { number := 3, cells := ["1", "1"] }, hs,
    hs', by simp [hrows], by simp [hrows'], hgone, ?_⟩
  intro h
  rcases h.kept { number := 3, cells := ["1", "1"] } (by simp [hrows]) with
    hrow | ⟨k, -, -, -, hdel⟩
  · rw [hrows'] at hrow
    exact List.not_mem_nil hrow
  · exact hgone k hdel

/-- The effect a thread is about to have. -/
def pending (s : Handlers) (k : ℕ) : Option Effect :=
  match s.threads[k]? with
  | some (.call e _) => some e
  | _ => none

theorem pending_eq {s : Handlers} {k : ℕ} {e : Effect} (h : s.asks k e) : pending s k = some e := by
  obtain ⟨next, h⟩ := h
  rw [pending, h]

/-- A turn is plainly in order: it has nothing to do with pushes, or no fetch has selected any yet,
or it deletes. -/
def plain (s : Handlers) (turn : ℕ × Meeting Bool) : Bool :=
  turn.2.db && match pending s turn.1 with
    | some (.query_store (.selectVideoPush userId)) =>
      userId = "1" && (selectedNumbers s.log).isEmpty
    | some (.query_execute (.insertVideoPush userId videoId)) =>
      userId = "1" && videoId = "1" && (selectedNumbers s.log).isEmpty
    | some (.query_execute (.deleteVideoPush userId)) => userId = "1"
    | _ => true

theorem not_open_of_unselected {s : Handlers} (h : selectedNumbers s.log = []) (k : ℕ)
    (userId : String) :
    ¬ Open s k userId := by
  rintro ⟨⟨rows, hne, hmem⟩, -⟩
  obtain ⟨row, hrow⟩ := List.exists_mem_of_ne_nil rows hne
  have hnumber : row.number ∈ selectedNumbers s.log :=
    List.mem_flatMap.mpr ⟨_, hmem, List.mem_map_of_mem hrow⟩
  rw [h] at hnumber
  exact List.not_mem_nil hnumber

theorem orderly_of_plain (s : Handlers) (turn : ℕ × Meeting Bool) (h : plain s turn = true) :
    Orderly database requests s turn := by
  obtain ⟨hup, h⟩ := Bool.and_eq_true_iff.mp h
  constructor
  case select =>
    intro userId hasks
    simp only [pending_eq hasks, Bool.and_eq_true, decide_eq_true_eq, List.isEmpty_iff] at h
    obtain ⟨rfl, hsel⟩ := h
    rw [hup]
    exact Or.inr ⟨rfl, fun _ k => not_open_of_unselected hsel k "1"⟩
  case insert =>
    intro userId videoId hasks
    simp only [pending_eq hasks, Bool.and_eq_true, decide_eq_true_eq, List.isEmpty_iff] at h
    obtain ⟨⟨rfl, rfl⟩, hsel⟩ := h
    rw [hup]
    exact Or.inr ⟨rfl, fun k => not_open_of_unselected hsel k "1"⟩
  case delete =>
    intro userId hasks
    simp only [pending_eq hasks, decide_eq_true_eq] at h
    obtain rfl := h
    rw [hup]
    exact ⟨fun row => userOf row = "1", rfl, fun row _ => decide_eq_true_iff⟩
  case send =>
    intro task videos htask hserver
    match hk : turn.1, htask with
    | 0, htask => cases htask; cases hserver
    | 1, htask => cases htask; cases hserver
    | k + 2, htask => cases htask

/-- The turns of the upload. -/
def uploadTurns : List (ℕ × Meeting Bool) := [1, 1, 1, 1, 1, 1].map fun k => (k, calm true)

/-- The turns of the fetch. -/
def fetchTurns : List (ℕ × Meeting Bool) := [0, 0, 0, 0].map fun k => (k, calm true)

/-- The upload, and then the fetch of what it has pushed. -/
theorem exactlyOnce_of_run_in_turn : ∃ s s',
    database.handlers.exec (pushing nlohmann requests (tables [])) uploadTurns = some s ∧
    database.handlers.exec s fetchTurns = some s' ∧ s.store.rows .VideoPush ≠ [] ∧
    ExactlyOnce nlohmann requests s s' := by
  have hrun : (database.handlers.exec (pushing nlohmann requests (tables [])) uploadTurns).map
      (fun s => (s.store.rows .VideoPush, (database.handlers.exec s fetchTurns).isSome)) =
      some ([{ number := 3, cells := ["1", "1"] }], true) := by
    decide +kernel
  obtain ⟨s, hs, hout⟩ := Option.map_eq_some_iff.mp hrun
  obtain ⟨hrows, hout⟩ := Prod.mk.inj hout
  obtain ⟨s', hs'⟩ := Option.isSome_iff_exists.mp hout
  have htasks : ∀ task ∈ requests, task.IsPush nlohmann := by
    have hquery : (pushQuery nlohmann fetchInfo).isSome = true := by decide +kernel
    intro task htask
    rcases List.mem_cons.mp htask with rfl | htask
    · exact hquery
    · rw [List.mem_singleton.mp htask]
      trivial
  have hguarded : database.handlers.Guarded (Orderly database requests)
      (pushing nlohmann requests (tables [])) (uploadTurns ++ fetchTurns) := by
    apply Machine.Guarded.mono _ orderly_of_plain
    decide +kernel
  have hnumbered : (tables []).Numbered :=
    ⟨List.nodup_nil, fun row hrow => absurd hrow List.not_mem_nil⟩
  exact ⟨s, s', hs, hs', by simp [hrows], exactlyOnce_of_run htasks hnumbered hguarded hs hs'⟩

end OneFollower

end PickUpLight.Store
