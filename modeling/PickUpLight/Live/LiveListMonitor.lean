import PickUpLight.Control.Effects
import PickUpLight.Heartbeat.Evaluator

/-!
# The live list

`LiveListMonitor` (`livelistmonitor.cpp`) maps users to the addresses of their streams. A handler
adds to it and takes from it whatever user the client names, and nothing in the list says which
connection an entry came from. `Streams` is the list together with what a reader would note down of
a run: who has logged in as whom, and who has last started a user's stream.
-/

namespace PickUpLight.Live

open PickUpLight.Theory PickUpLight.Control PickUpLight.Heartbeat

/-- `m_liveList`. -/
abbrev LiveList := AList fun _ : String => String

namespace LiveList

/-- `add`: a stream that is already there stays as it is, as `insert` has it. -/
def add (l : LiveList) (id url : String) : LiveList := if id ∈ l then l else l.insert id url

/-- `remove`. -/
def remove (l : LiveList) (id : String) : LiveList := l.erase id

/-- `getLiveList`. -/
def getLiveList (l : LiveList) : List (String × String) := l.entries.map fun e => (e.1, e.2)

theorem mem_add {l : LiveList} {id url u : String} : u ∈ l.add id url ↔ u = id ∨ u ∈ l := by
  unfold add
  split
  · rename_i h
    exact ⟨.inr, fun hu => hu.elim (fun heq => heq ▸ h) fun hu => hu⟩
  · exact AList.mem_insert l

theorem mem_remove {l : LiveList} {id u : String} : u ∈ l.remove id ↔ u ≠ id ∧ u ∈ l :=
  AList.mem_erase

end LiveList

/-- The live list, and its history. -/
structure Streams where
  /-- The list. -/
  m_liveList : LiveList
  /-- History: the connections that have logged in, each with the user. -/
  logins : List (ℕ × String)
  /-- History: the connection that has last started a user's stream. -/
  starters : AList fun _ : String => ℕ

namespace Streams

/-- Before the first connection. -/
def initial : Streams where
  m_liveList := ∅
  logins := []
  starters := ∅

/-- A connection logs in. -/
def login (l : Streams) (c : ℕ) (userId : String) : Streams :=
  { l with logins := l.logins ++ [(c, userId)] }

/-- A connection starts a stream. -/
def start (l : Streams) (c : ℕ) (id url : String) : Streams :=
  { l with m_liveList := l.m_liveList.add id url, starters := l.starters.insert id c }

/-- A stream is taken off the list. -/
def stop (l : Streams) (id : String) : Streams := { l with m_liveList := l.m_liveList.remove id }

/-- User `u` is on the list with a stream that the user's own connection `c` has started. -/
def Shows (l : Streams) (c : ℕ) (u : String) : Prop :=
  u ∈ l.m_liveList ∧ l.starters.lookup u = some c ∧ (c, u) ∈ l.logins

/-- Connection `d` has logged in as `u`. -/
def LoggedIn (l : Streams) (d : ℕ) (u : String) : Prop := (d, u) ∈ l.logins

end Streams

/-- What a handler does to the map and to the list, for connection `c`, whose key is `key`; `h`
answers all other effects. -/
def performFor {κ : Type} [DecidableEq κ] (key : κ) (c : ℕ) (m : Registry κ) (l : Streams)
    (h : (e : Effect) → e.Answer) : (e : Effect) → (Registry κ × Streams) × e.Answer
  | .set_0 =>
    match m.set_0 key with
    | some m' => ((m', l), true)
    | none => ((m, l), false)
  | .add_userId userId =>
    match m.add_userId key userId with
    | some m' => ((m', l.login c userId), true)
    | none => ((m, l), false)
  | .addLive id url => ((m, l.start c id url), ())
  | .removeLive id => ((m, l.stop id), ())
  | .getLiveList => ((m, l), l.m_liveList.getLiveList)
  | e => ((m, l), h e)

/-- An effect that logs a connection in, or starts a stream. -/
def isEntry : Effect → Bool
  | .add_userId _ | .addLive _ _ => true
  | _ => false

/-! ### Streams and their users -/

/-- **No stream outlives its connection**: where a user's own connection has started the stream and
has ended since, and the user has no other connection, the user is not on the list. -/
def NoneOutlives (connected : ℕ → Prop) (l : Streams) : Prop :=
  ∀ u c, l.starters.lookup u = some c → l.LoggedIn c u → ¬ connected c →
    (∀ d, d ≠ c → connected d → ¬ l.LoggedIn d u) → u ∉ l.m_liveList

/-- Every user who is shown has a connection with `p`. -/
def Attended (p : ℕ → String → Prop) (l : Streams) : Prop :=
  ∀ c u, l.Shows c u → ∃ d, p d u ∧ l.LoggedIn d u

variable {p q : ℕ → String → Prop} {l : Streams} {c d : ℕ} {u id url : String}

theorem Attended.noneOutlives {connected : ℕ → Prop} (h : Attended p l)
    (hp : ∀ d u, p d u → connected d) :
    NoneOutlives connected l := by
  intro u c hstarter hlogin hended hothers hmem
  obtain ⟨d, hd, hlogd⟩ := h c u ⟨hmem, hstarter, hlogin⟩
  by_cases hdc : d = c
  · exact hended (hdc ▸ hp d u hd)
  · exact hothers d hdc (hp d u hd) hlogd

theorem attended_initial : Attended p Streams.initial := by
  intro c u hshows
  exact absurd hshows.1 (AList.notMem_empty u)

theorem Attended.mono (h : Attended p l) (hp : ∀ d u, p d u → q d u) : Attended q l := by
  intro c u hshows
  obtain ⟨d, hd, hlog⟩ := h c u hshows
  exact ⟨d, hp d u hd, hlog⟩

/-- A login of a connection that is there. -/
theorem Attended.login (h : Attended p l) (hc : p c u) : Attended p (l.login c u) := by
  intro b v hshows
  obtain ⟨hmem, hstarter, hlogin⟩ := hshows
  rcases List.mem_append.mp hlogin with hlogin | hnew
  · obtain ⟨d, hd, hlog⟩ := h b v ⟨hmem, hstarter, hlogin⟩
    exact ⟨d, hd, List.mem_append_left _ hlog⟩
  · rw [List.mem_singleton, Prod.mk.injEq] at hnew
    exact ⟨c, hnew.2 ▸ hc, List.mem_append_right _ (List.mem_singleton.mpr (hnew.2 ▸ rfl))⟩

/-- A stream of a connection that is there. -/
theorem Attended.start (h : Attended p l) (hc : p c id) : Attended p (l.start c id url) := by
  intro b v hshows
  obtain ⟨hmem, hstarter, hlogin⟩ := hshows
  by_cases hv : v = id
  · subst hv
    rw [Streams.start, AList.lookup_insert, Option.some.injEq] at hstarter
    subst hstarter
    exact ⟨c, hc, hlogin⟩
  · rw [Streams.start, AList.lookup_insert_ne hv] at hstarter
    exact h b v ⟨(LiveList.mem_add.mp hmem).resolve_left hv, hstarter, hlogin⟩

/-- Whoever is taken off the list needs no connection. -/
theorem Attended.stop (h : Attended p l) (hp : ∀ d u, u ≠ id → p d u → q d u) :
    Attended q (l.stop id) := by
  intro b v hshows
  obtain ⟨hmem, hstarter, hlogin⟩ := hshows
  obtain ⟨hne, hmem⟩ := LiveList.mem_remove.mp hmem
  obtain ⟨d, hd, hlog⟩ := h b v ⟨hmem, hstarter, hlogin⟩
  exact ⟨d, hp d v hne hd, hlog⟩

/-- A handler keeps every user attended who was, if the connection it works for is there when it
logs in or starts a stream. -/
theorem Attended.perform {κ : Type} [DecidableEq κ] (key : κ) (m : Registry κ)
    (h : (e : Effect) → e.Answer) {e : Effect} (hl : Attended p l) (hc : isEntry e → ∀ u, p c u) :
    Attended p (performFor key c m l h e).1.2 := by
  cases e with
  | set_0 =>
    simp only [performFor]
    split <;> exact hl
  | add_userId userId =>
    simp only [performFor]
    split
    · exact hl.login (hc rfl userId)
    · exact hl
  | addLive id url => exact hl.start (hc rfl id)
  | removeLive id => exact hl.stop fun _ _ _ hp => hp
  | _ => exact hl

end PickUpLight.Live
