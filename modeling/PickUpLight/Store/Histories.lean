import PickUpLight.Store.VideoPush

/-!
# What histories of pushes tell

An upload has nothing to do with fetches (`meets_receive_file`), and what a thread has asked and
been answered tells the stage it is at (`Traced`), in every run.
-/

namespace PickUpLight.Store

open PickUpLight.Theory PickUpLight.Theory.Roster PickUpLight.Control PickUpLight.Wire

/-! ### Uploads -/

/-- An effect that has nothing to do with a fetch of pushes. -/
def Unrelated : Effect → Prop
  | .query_store (.selectVideoPush _) => False
  | .query_execute (.deleteVideoPush _) => False
  | .send p => p.purpose ≠ .GetInfo
  | _ => True

section Uploads

variable (lib : Nlohmann) (server : Server)

/-- The statement of a plan is not one that deletes pushes. -/
def PlanOk (plan : ReceiveFileControl.Plan) : Prop := Unrelated (.query_execute plan.command)

theorem meets_str {jsonMsg : Json} {key : String} {post : String → Prop} (h : ∀ s, post s) :
    (Handler.str jsonMsg key).Meets Unrelated post :=
  Program.meets_ofOption fun s _ => h s

theorem meets_nextId : Handler.nextId.Meets Unrelated fun _ => True :=
  ⟨trivial, fun _ => Program.meets_ofOption fun _ _ => trivial⟩

theorem meets_planVideo (jsonMsg : Json) :
    (ReceiveFileControl.planVideo lib server jsonMsg).Meets Unrelated PlanOk := by
  unfold ReceiveFileControl.planVideo NetPacketGenerator.sendVideoId_P
  refine Program.Meets.bind meets_nextId fun videoId _ => ?_
  refine Program.Meets.bind (meets_str fun _ => trivial) fun suffix (_ : True) => ?_
  refine Program.Meets.bind (meets_str fun _ => trivial) fun id (_ : True) => ?_
  refine Program.Meets.bind (meets_str fun _ => trivial) fun profile (_ : True) => ?_
  rw [NetPacketGenerator.packet_bind]
  split
  · refine Program.Meets.bind ?_ fun _ (_ : True) => trivial
    exact Program.Meets.bind (Handler.meets_perform nofun) fun ok _ => Handler.meets_sent server ok
  · trivial

theorem meets_planPicture (jsonMsg : Json) :
    (ReceiveFileControl.planPicture server jsonMsg).Meets Unrelated PlanOk := by
  unfold ReceiveFileControl.planPicture
  refine Program.Meets.bind (meets_str fun _ => trivial) fun id (_ : True) => ?_
  exact Program.Meets.bind (meets_str fun _ => trivial) fun suffix (_ : True) => trivial

theorem meets_planPreview (jsonMsg : Json) :
    (ReceiveFileControl.planPreview jsonMsg).Meets Unrelated PlanOk := by
  unfold ReceiveFileControl.planPreview
  refine Program.Meets.bind (meets_str fun _ => trivial) fun id (_ : True) => ?_
  exact Program.Meets.bind (meets_str fun _ => trivial) fun suffix (_ : True) => trivial

theorem meets_planChatImg (jsonMsg : Json) :
    (ReceiveFileControl.planChatImg jsonMsg).Meets Unrelated PlanOk := by
  unfold ReceiveFileControl.planChatImg
  refine Program.Meets.bind meets_nextId fun chatImgId _ => ?_
  refine Program.Meets.bind (meets_str fun _ => trivial) fun suffix (_ : True) => ?_
  refine Program.Meets.bind (meets_str fun _ => trivial) fun sendId (_ : True) => ?_
  exact Program.Meets.bind (meets_str fun _ => trivial) fun receiveId (_ : True) => trivial

theorem meets_isType (jsonMsg : Json) (filetype : FileType) :
    (ReceiveFileControl.isType jsonMsg filetype).Meets Unrelated fun _ => True :=
  Program.meets_ofOption fun _ _ => trivial

theorem meets_plan (jsonMsg : Json) :
    (ReceiveFileControl.plan lib server jsonMsg).Meets Unrelated PlanOk := by
  unfold ReceiveFileControl.plan
  refine Program.Meets.bind (meets_isType jsonMsg _) fun isPicture _ => ?_
  split
  · exact meets_planPicture server jsonMsg
  refine Program.Meets.bind (meets_isType jsonMsg _) fun isChatImg _ => ?_
  split
  · exact meets_planChatImg jsonMsg
  refine Program.Meets.bind (meets_isType jsonMsg _) fun isPreview _ => ?_
  split
  · exact meets_planPreview jsonMsg
  refine Program.Meets.bind (meets_isType jsonMsg _) fun isVideo _ => ?_
  split
  · exact meets_planVideo lib server jsonMsg
  · trivial

theorem meets_push (videoId id : String) :
    (ReceiveFileControl.push videoId id).Meets Unrelated fun _ => True := by
  refine Program.Meets.bind (Handler.meets_perform trivial) fun rows _ => ?_
  match rows with
  | none => trivial
  | some followers =>
    refine Program.Meets.loop (fun _ row _ => ?_) followers trivial
    refine Program.Meets.bind (Program.meets_ofOption fun _ _ => trivial) fun follower (_ : True) =>
      ?_
    exact Program.Meets.bind (Handler.meets_perform trivial) fun _ _ => trivial

/-- **An upload has nothing to do with fetches**, whatever it is answered. -/
theorem meets_receive_file (fileInfo fileData : List UInt8) :
    (ReceiveFileControl.receive_file lib server fileInfo fileData).Meets Unrelated fun _ =>
      True := by
  unfold ReceiveFileControl.receive_file
  refine Program.Meets.bind (Program.meets_ofOption fun _ _ => trivial) fun jsonMsg (_ : True) => ?_
  refine Program.Meets.bind (meets_plan lib server jsonMsg) fun plan hplan => ?_
  refine Program.Meets.bind (Handler.meets_perform trivial) fun _ _ => ?_
  refine Program.Meets.bind (Handler.meets_perform hplan) fun _ _ => ?_
  refine Program.Meets.bind (meets_isType jsonMsg _) fun isVideo _ => ?_
  split
  · exact Program.Meets.bind (meets_str fun _ => trivial) fun id (_ : True) => meets_push _ _
  · trivial

end Uploads

/-! ### What a thread's history tells of its stage -/

/-- The history of a fetch without the looking for publishers. -/
def core (h : History) : History :=
  h.filter fun x => match x.1 with
    | .query_store (.selectPublisher _) => false
    | _ => true

@[simp] theorem core_nil : core [] = [] := rfl

theorem core_append_select (h : History) (userId : String) (rows : List Row) :
    core (h ++ [selection userId rows]) = core h ++ [selection userId rows] := by
  simp [core, selection]

theorem core_append_reply (h : History) (videos : Json) (ok : Bool) :
    core (h ++ [reply videos ok]) = core h ++ [reply videos ok] := by
  simp [core, reply]

theorem core_append_lookup (h : History) (id : String) (r : Option (List Row)) :
    core (h ++ [⟨.query_store (.selectPublisher id), r⟩]) = core h := by
  simp [core]

theorem selection_mem_core {h : History} {userId : String} {rows : List Row} :
    selection userId rows ∈ core h ↔ selection userId rows ∈ h := by
  simp [core, selection]

theorem reply_mem_core {h : History} {videos : Json} {ok : Bool} :
    reply videos ok ∈ core h ↔ reply videos ok ∈ h := by
  simp [core, reply]

theorem delete_mem_core {h : History} {userId : String} {ok : Bool} :
    (⟨.query_execute (.deleteVideoPush userId), ok⟩ : (e : Effect) × e.Answer) ∈ core h ↔
      ⟨.query_execute (.deleteVideoPush userId), ok⟩ ∈ h := by
  simp [core]

@[simp] theorem selection_inj {userId userId' : String} {rows rows' : List Row} :
    selection userId rows = selection userId' rows' ↔ userId = userId' ∧ rows = rows' := by
  simp only [selection, Sigma.mk.injEq, Effect.query_store.injEq, Command.selectVideoPush.injEq]
  constructor
  · rintro ⟨rfl, h⟩
    exact ⟨rfl, Option.some.inj (eq_of_heq h)⟩
  · rintro ⟨rfl, rfl⟩
    exact ⟨rfl, HEq.rfl⟩

@[simp] theorem selection_ne_reply {userId : String} {rows : List Row} {videos : Json} {ok : Bool} :
    selection userId rows ≠ reply videos ok := by
  simp [selection, reply]

@[simp] theorem reply_inj {videos videos' : Json} {ok ok' : Bool} :
    reply videos ok = reply videos' ok' ↔ videos = videos' ∧ ok = ok' := by
  simp only [reply, pushPacket, NetPacketGenerator.info, Json.set, Json.assign, Sigma.mk.injEq,
    Effect.send.injEq, NetPacket.mk.injEq, true_and]
  constructor
  · rintro ⟨h, hok⟩
    simp at h
    subst h
    exact ⟨rfl, eq_of_heq hok⟩
  · rintro ⟨rfl, rfl⟩
    exact ⟨rfl, HEq.rfl⟩

namespace Pushing

/-- What the history of a thread tells of the stage it is at. -/
def Told : Pushing → History → Prop
  | upload p, h => p.Meets Unrelated (fun _ => True) ∧ ∀ x ∈ h, Unrelated x.1
  | select _ _, h => core h = []
  | look _ userId rest _ videos, h => ∃ done, core h = [selection userId (done ++ rest)] ∧
      done ++ rest ≠ [] ∧ videoIds videos = column done
  | delete userId, h => ∃ rows videos ok, core h = [selection userId rows, reply videos ok] ∧
      rows ≠ [] ∧ videoIds videos = column rows
  | empty _, h => ∃ userId, core h = [selection userId []]
  | _, _ => True

variable (lib : Nlohmann)

/-- The history keeps telling it. -/
theorem Told.next {st : Pushing} {h : History} (hst : st.Told h) {e : Effect}
    {after : e.Answer → Pushing} (he : st.next lib = some ⟨e, after⟩) (r : e.Answer) :
    (after r).Told (h ++ [⟨e, r⟩]) := by
  cases st with
  | upload p =>
    cases p with
    | ret a => cases he
    | fail => cases he
    | call e' after' =>
      cases he
      obtain ⟨hp, hh⟩ := hst
      refine ⟨hp.2 r, fun x hx => ?_⟩
      rcases List.mem_append.mp hx with hx | hx
      · exact hh x hx
      · rw [List.mem_singleton.mp hx]
        exact hp.1
  | select server userId =>
    cases he
    rcases r with _ | _ | ⟨row, rows⟩
    · trivial
    · refine ⟨userId, ?_⟩
      exact (core_append_select h userId []).trans (congrArg (· ++ _) hst)
    · refine ⟨[], ?_, List.cons_ne_nil row rows, rfl⟩
      exact (core_append_select h userId (row :: rows)).trans (congrArg (· ++ _) hst)
  | look server userId rest video videos =>
    obtain ⟨done, hcore, hne, hvideos⟩ := hst
    cases rest with
    | nil =>
      simp only [Pushing.next, Option.ite_none_right_eq_some] at he
      obtain ⟨-, he⟩ := he
      cases he
      simp only [sent]
      split
      · trivial
      · rw [List.append_nil] at hcore hne
        refine ⟨done, videos, r, ?_, hne, hvideos⟩
        exact (core_append_reply h videos r).trans (congrArg (· ++ _) hcore)
    | cons row rest =>
      simp only [Pushing.next] at he
      split at he
      · rename_i videoId hcell
        cases he
        have hhead : row.cells.headD "" = videoId := by
          rw [← List.head?_eq_getElem?] at hcell
          simp [hcell]
        have hlooked : ∀ (video' : Json) rows, video'.string "videoId" = some videoId →
            (look server userId rest video' (videos.push_back video')).Told
              (h ++ [⟨.query_store (.selectPublisher videoId), rows⟩]) := by
          intro video' rows hvideo'
          refine ⟨done ++ [row], ?_, by simp, ?_⟩
          · rw [core_append_lookup, hcore, List.append_assoc, List.singleton_append]
          · rw [videoIds_push_back, hvideos, hvideo', column, column, List.map_append,
              List.map_singleton, hhead]
            rfl
        rcases r with _ | _ | ⟨publisher, _⟩
        · exact hlooked _ _ (Json.string_set_self video "videoId" videoId)
        · exact hlooked _ _ (Json.string_set_self video "videoId" videoId)
        · simp only [looked]
          split
          · rename_i publisherId _
            apply hlooked
            rw [Json.string_set_ne (by decide)]
            exact Json.string_set_self video "videoId" videoId
          · trivial
      · cases he
  | delete userId => cases he; trivial
  | empty server =>
    simp only [Pushing.next, Option.ite_none_right_eq_some] at he
    obtain ⟨-, he⟩ := he
    cases he
    simp only [sent]
    split <;> trivial
  | returned => cases he
  | failed => cases he

/-- The stage is one of this request. -/
def IsOf (task : Task) : Pushing → Prop
  | select server userId => task.server = server ∧ task.user lib = some userId
  | look server userId _ _ _ => task.server = server ∧ task.user lib = some userId
  | delete userId => task.user lib = some userId
  | _ => True

theorem IsOf.next {task : Task} {st : Pushing} (hst : st.IsOf lib task) {e : Effect}
    {after : e.Answer → Pushing} (he : st.next lib = some ⟨e, after⟩) (r : e.Answer) :
    (after r).IsOf lib task := by
  cases st with
  | upload p =>
    cases p with
    | ret a => cases he
    | fail => cases he
    | call e' after' => cases he; trivial
  | select server userId =>
    cases he
    rcases r with _ | _ | ⟨_, _⟩
    · trivial
    · trivial
    · exact hst
  | look server userId rest video videos =>
    cases rest with
    | nil =>
      simp only [Pushing.next, Option.ite_none_right_eq_some] at he
      obtain ⟨-, he⟩ := he
      cases he
      simp only [sent]
      split
      · trivial
      · exact hst.2
    | cons row rest =>
      simp only [Pushing.next] at he
      split at he
      · cases he
        rcases r with _ | _ | ⟨_, _⟩
        · exact hst
        · exact hst
        · simp only [looked]
          split
          · exact hst
          · trivial
      · cases he
  | delete userId => cases he; trivial
  | empty server =>
    simp only [Pushing.next, Option.ite_none_right_eq_some] at he
    obtain ⟨-, he⟩ := he
    cases he
    simp only [sent]
    split <;> trivial
  | returned => cases he
  | failed => cases he

end Pushing

/-- Where a request starts. -/
def Task.start (lib : Nlohmann) : Task → Pushing
  | .fetch server buf =>
    match (Task.fetch server buf).user lib with
    | some userId => .select server userId
    | none => .failed
  | .upload server fileInfo fileData =>
    .upload (ReceiveFileControl.receive_file lib server fileInfo fileData)

theorem Task.program_start (lib : Nlohmann) {task : Task} (h : task.IsPush lib) :
    (task.start lib).program lib = task.handler lib := by
  cases task with
  | upload server fileInfo fileData => rfl
  | fetch server buf =>
    obtain ⟨jsonMsg, hquery⟩ := Option.isSome_iff_exists.mp h
    have hinfo := hquery
    simp only [pushQuery, Option.bind_eq_some_iff, Option.ite_none_right_eq_some,
      Option.some.injEq] at hinfo
    obtain ⟨_, hparse, infotype, henum, hcode, rfl⟩ := hinfo
    simp only [Task.start, Task.user, hquery, Option.bind_some, Task.handler,
      SendInfoControl.send_info,
      hparse, henum, hcode, Program.ofOption_some, Program.ret_bind, SendInfoControl.answer,
        Handler.str]
    cases Json.string _ "userId" <;> rfl

/-- The requests by their stages. -/
abbrev Pushings := Staged Tables Effect Effect.Answer Pushing

variable {H : Type} {db : Database H} {lib : Nlohmann} {tasks : List Task}

/-- Each thread is at a stage of its request that its history tells. -/
def Traced (lib : Nlohmann) (tasks : List Task) (s : Pushings) : Prop :=
  ∀ (k : ℕ) st, s.stages[k]? = some st →
    st.Told (historyOf s.log k) ∧ ∃ task, tasks[k]? = some task ∧ st.IsOf lib task

/-- **Histories tell the stages in every run.** -/
theorem Traced.step {s s' : Pushings} (hs : Traced lib tasks s) {turn : ℕ × Meeting H}
    (h : (Pushing.stages lib).staged db.perform s turn = some s') : Traced lib tasks s' := by
  obtain ⟨k, meeting⟩ := turn
  obtain ⟨st, e, after, hk, he, rfl⟩ := ((Pushing.stages lib).staged_eq_some _).mp h
  intro j stage hj
  rcases (getElem?_set_iff hk).mp hj with ⟨rfl, rfl⟩ | ⟨hjk, hj⟩
  · obtain ⟨htold, task, htask, hof⟩ := hs k st hk
    rw [historyOf_append_self]
    exact ⟨htold.next lib he _, task, htask, hof.next lib he _⟩
  · rw [historyOf_append_ne s.log hjk]
    exact hs j stage hj

theorem traced_start (t : Tables) :
    Traced lib tasks { store := t, stages := tasks.map (Task.start lib), log := [] } := by
  intro k st hk
  rw [List.getElem?_map, Option.map_eq_some_iff] at hk
  obtain ⟨task, htask, rfl⟩ := hk
  cases task with
  | upload server fileInfo fileData =>
    exact ⟨⟨meets_receive_file lib server fileInfo fileData, nofun⟩, _, htask, trivial⟩
  | fetch server buf =>
    simp only [Task.start]
    split
    · rename_i userId huser
      exact ⟨rfl, _, htask, rfl, huser⟩
    · exact ⟨trivial, _, htask, trivial⟩

end PickUpLight.Store
