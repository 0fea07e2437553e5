import PickUpLight.Requests.Boundaries

/-!
# Lengths of uploads

A file of `data_size` bytes is read into a block of `data_size + 1` bytes, an unsigned sum, and
its length goes through the `int` that `my_recv` takes on one server, and through the `int` that
holds what `read` returns on the other. A session keeps every length but the last one
there is, a task of the epoll server those that fit an `int` (`uploads_iff`).
-/

namespace PickUpLight.Requests

open PickUpLight.Theory PickUpLight.Wire

/-- The header of a file of a given length. -/
def fileHeader (data_size : UInt32) : NetPacketHeader where
  purpose := Purpose.SendFile.code
  data_size := data_size

theorem fileHeader_isFile (data_size : UInt32) : (fileHeader data_size).IsFile := rfl

/-- The block for a file holds it. -/
def BlockHolds (data_size : UInt32) : Prop := data_size.toNat ≤ (data_size + 1).toNat

theorem blockHolds_iff {data_size : UInt32} :
    BlockHolds data_size ↔ data_size.toNat ≠ 2 ^ 32 - 1 := by
  have hlt := data_size.toNat_lt
  have hone : (1 : UInt32).toNat = 1 := rfl
  rw [BlockHolds, UInt32.toNat_add]
  omega

/-- A session reads exactly the file a client sends, and hands it over with its description: as
long as it is being read, it can go on. -/
def SessionUploads (data_size : UInt32) : Prop :=
  BlockHolds data_size ∧ ∀ (H : Type) (run : Boost.Handlers H) (s s' : Boost.Session)
    (info file rest : List UInt8) (events : List (Boost.Event H)), s.header = fileHeader data_size →
    s.isOpen = true → info.length = BUF_SIZE → file.length = data_size.toNat →
    s.left = (info ++ file) ++ rest → (∀ e ∈ events, e ≠ .evict ∧ ∀ n, e ≠ .receive n) →
    (Boost.session run).exec s.processSingleRequest events = some s' →
    (∀ i, s'.phase = .fileData i → s'.wanted = data_size.toNat) ∧
      (s'.reading = true ∧ ¬ Boost.AtRest run s' ∧ s'.calls = s.calls ∨
        s'.calls = s.calls ++ [{ header := fileHeader data_size, payload := info ++ file }])

/-- The same of a task of the epoll server. -/
def ConnUploads (data_size : UInt32) : Prop :=
  BlockHolds data_size ∧ ∀ (H : Type) (run : Epoll.Handlers H) (s s' : Epoll.Conn)
    (info file rest : List UInt8) (events : List (Epoll.Event H)), s.pheader =
      fileHeader data_size →
    info.length = BUF_SIZE → file.length = data_size.toNat → s.left = (info ++ file) ++ rest →
    (Epoll.conn run).Guarded Epoll.Within s.processSingleRequest events →
    (Epoll.conn run).exec s.processSingleRequest events = some s' →
    (∀ i t, s'.phase = .receiving (.fileData i) t → t.length = data_size.toNat) ∧
      ((∃ dest t, s'.phase = .receiving dest t ∧ dest ≠ .header) ∧ ¬ Epoll.AtRest run s' ∧
        s'.calls = s.calls ∨
        s'.calls = s.calls ++ [{ header := fileHeader data_size, payload := info ++ file }])

variable {d : UInt32}

/-! ### Sessions -/

theorem sessionUploads_of_ne (hpos : 1 ≤ d.toNat) (hne : d.toNat ≠ 2 ^ 32 - 1) :
    SessionUploads d := by
  refine ⟨blockHolds_iff.mpr hne, ?_⟩
  intro H run s s' info file rest events hheader hopen hinfo hfile hleft hevents hrun
  have hs := (Boost.serving_start hheader hleft rfl).of_run (fun e he => (hevents e he).2) hrun
  have hdemand : Boost.demand (fileHeader d) = (info ++ file).length := by
    rw [Boost.demand_file (fileHeader_isFile d), List.length_append, hinfo, hfile]
    rfl
  have hle : Boost.demand (fileHeader d) ≤ ((info ++ file) ++ rest).length := by
    rw [hdemand]
    exact (List.prefix_append _ _).length_le
  have hhanded :
      Boost.handed (fileHeader d) (((info ++ file) ++ rest).take (Boost.demand (fileHeader d))) =
        some { header := fileHeader d, payload := info ++ file } := by
    have hok : refused (Int32.ofNat d.toNat) d = false := by
      rw [← Bool.not_eq_true, refused_all]
      omega
    rw [Boost.handed_file (fileHeader_isFile d), hdemand, List.take_left' rfl]
    show (if refused (Int32.ofNat d.toNat) d = true then none else _) = _
    rw [hok]
    rfl
  have hserved : Boost.Served (fileHeader d) ((info ++ file) ++ rest) s.calls s' →
      s'.calls = s.calls ++ [{ header := fileHeader d, payload := info ++ file }] := by
    rintro ⟨-, -, hcalls⟩
    rw [hcalls, hhanded]
    rfl
  have hstart : s.processSingleRequest.phase = .ended ∨ s.processSingleRequest.isOpen = true := by
    have hcode : Purpose.ofCode (fileHeader d).purpose = some .SendFile := rfl
    simp only [Boost.Session.processSingleRequest, hheader, hcode]
    exact Or.inr hopen
  have hopen' := Boost.isOpen_of_run hstart hevents hrun
  have hgo : s'.reading = true → ¬ Boost.AtRest run s' := fun hr =>
    hs.not_atRest hr (hopen'.resolve_left fun hp => by simp [Boost.Session.reading, hp] at hr) hle
  cases hp : s'.phase with
  | body =>
    simp only [Boost.Serving, hp] at hs
    exact absurd (fileHeader_isFile d) hs.2.1.not_isFile
  | fileInfo =>
    simp only [Boost.Serving, hp] at hs
    have hr : s'.reading = true := by simp [Boost.Session.reading, hp]
    exact ⟨by simp, Or.inl ⟨hr, hgo hr, hs.2.2.2⟩⟩
  | fileData i =>
    simp only [Boost.Serving, hp] at hs
    have hr : s'.reading = true := by simp [Boost.Session.reading, hp]
    refine ⟨fun _ _ => ?_, Or.inl ⟨hr, hgo hr, hs.2.2.2.2⟩⟩
    simp only [Boost.Session.wanted, hp, hs.1]
    rfl
  | handling call =>
    simp only [Boost.Serving, hp] at hs
    exact ⟨by simp, Or.inr (hserved hs.2)⟩
  | receiving | ended =>
    simp only [Boost.Serving, hp] at hs
    exact ⟨by simp, Or.inr (hserved hs)⟩
  | escaped =>
    simp only [Boost.Serving, hp] at hs
    refine ⟨by simp, Or.inr (hserved (hs.resolve_left ?_))⟩
    rintro ⟨-, hclosed | hshort⟩
    · rw [hp, hclosed] at hopen'
      simp at hopen'
    · exact absurd hle (Nat.not_le.mpr hshort)
  | overrun =>
    simp only [Boost.Serving, hp] at hs
    exact absurd hs.2.1 hne

/-! ### Connections of the epoll server -/

theorem connUploads_of_lt (hpos : 1 ≤ d.toNat) (hlt : d.toNat < 2 ^ 31) : ConnUploads d := by
  refine ⟨blockHolds_iff.mpr (by omega), ?_⟩
  intro H run s s' info file rest events hheader hinfo hfile hleft hw hrun
  have hs := (Epoll.serving_start hheader hleft rfl).of_run hw hrun
  have hint : Epoll.asInt (fileHeader d).data_size = d.toNat := Epoll.asInt_of_lt hlt
  have hdemand : Epoll.demand (fileHeader d) = (info ++ file).length := by
    rw [Epoll.demand_file (fileHeader_isFile d), List.length_append, hinfo, hfile, hint,
      Int.toNat_natCast]
  have hle : Epoll.demand (fileHeader d) ≤ ((info ++ file) ++ rest).length := by
    rw [hdemand]
    exact (List.prefix_append _ _).length_le
  have hhanded :
      Epoll.handed (fileHeader d) (((info ++ file) ++ rest).take (Epoll.demand (fileHeader d))) =
        some { header := fileHeader d, payload := info ++ file } := by
    rw [Epoll.handed_file (fileHeader_isFile d), hdemand, List.take_left' rfl, hint,
      if_pos (by omega)]
  have hserved : Epoll.Served (fileHeader d) ((info ++ file) ++ rest) s.calls s' →
      s'.calls = s.calls ++ [{ header := fileHeader d, payload := info ++ file }] := by
    rintro ⟨-, -, hcalls⟩
    rw [hcalls, hhanded]
    rfl
  cases hp : s'.phase with
  | receiving dest t =>
    cases dest with
    | header =>
      simp only [Epoll.Serving, hp] at hs
      refine ⟨by simp, Or.inr (hserved (hs.2.resolve_right ?_))⟩
      rintro ⟨hshort, -, -⟩
      omega
    | body =>
      simp only [Epoll.Serving, hp] at hs
      exact absurd (fileHeader_isFile d) hs.2.1.not_isFile
    | fileInfo =>
      have hgo : ¬ Epoll.AtRest run s' := hs.not_atRest hp (by simp) hle
      simp only [Epoll.Serving, hp] at hs
      exact ⟨by simp, Or.inl ⟨⟨_, _, rfl, by simp⟩, hgo, hs.2.2.2.2.2⟩⟩
    | fileData i =>
      have hgo : ¬ Epoll.AtRest run s' := hs.not_atRest hp (by simp) hle
      simp only [Epoll.Serving, hp] at hs
      refine ⟨fun i' t' ht' => ?_, Or.inl ⟨⟨_, _, rfl, by simp⟩, hgo, hs.2.2.2.2.2.2⟩⟩
      cases ht'
      rw [hs.2.2.2.1, hint]
  | handling call =>
    simp only [Epoll.Serving, hp] at hs
    exact ⟨by simp, Or.inr (hserved hs.2)⟩
  | escaped =>
    simp only [Epoll.Serving, hp] at hs
    exact ⟨by simp, Or.inr (hserved hs)⟩
  | smashed =>
    simp only [Epoll.Serving, hp] at hs
    exact absurd (fileHeader_isFile d) hs.1.not_isFile
  | watched | closed | dropped =>
    simp only [Epoll.Serving, hp] at hs

theorem ConnUploads.lt (hu : ConnUploads d) : d.toNat < 2 ^ 31 := by
  by_contra hlarge
  have hneg : ¬ 0 < Epoll.asInt (fileHeader d).data_size := by
    rw [Epoll.asInt_pos]
    show ¬ (1 ≤ d.toNat ∧ d.toNat < 2 ^ 31)
    omega
  let info : List UInt8 := List.replicate BUF_SIZE 0
  let file : List UInt8 := List.replicate d.toNat 0
  let s₁ : Epoll.Conn := { readyConn (fileHeader d) (info ++ file) with
    phase := .receiving .fileInfo { length := BUF_SIZE, done := [] } }
  have hinfo : info.length = BUF_SIZE := List.length_replicate
  have hrecv : Epoll.conn Epoll.quiet s₁ (.recv BUF_SIZE) =
      some { s₁ with avail := s₁.avail.drop BUF_SIZE }.nextHeader := by
    refine Epoll.conn_fileInfo_nothing rfl hneg ?_
    show BUF_SIZE ≤ (info ++ file).length
    rw [List.length_append, hinfo]
    omega
  have hrun := (Machine.exec_singleton (Epoll.conn Epoll.quiet) s₁ _).trans hrecv
  have hw : Epoll.Within s₁ (.recv BUF_SIZE) := within_of_ne nofun
  have hleft : (readyConn (fileHeader d) (info ++ file)).left = (info ++ file) ++ [] := rfl
  obtain ⟨-, ⟨⟨dest, t, hp, hne⟩, -⟩ | hcalls⟩ :=
    hu.2 Unit Epoll.quiet _ _ info file [] _ rfl hinfo List.length_replicate hleft
      ((Machine.guarded_singleton _).mpr hw) hrun
  · cases hp
    exact hne rfl
  · cases hcalls

/-- **Which lengths of files are read exactly**, on each of the two servers. -/
theorem uploads_iff (data_size : UInt32) (hpos : 1 ≤ data_size.toNat) :
    (SessionUploads data_size ↔ data_size.toNat ≠ 2 ^ 32 - 1) ∧
      (ConnUploads data_size ↔ data_size.toNat < 2 ^ 31) :=
  ⟨⟨fun hu => blockHolds_iff.mp hu.1, sessionUploads_of_ne hpos⟩,
    ⟨ConnUploads.lt, connUploads_of_lt hpos⟩⟩

/-- A file of one byte. -/
theorem uploads_iff_one : (SessionUploads 1 ↔ (1 : UInt32).toNat ≠ 2 ^ 32 - 1) ∧
    (ConnUploads 1 ↔ (1 : UInt32).toNat < 2 ^ 31) :=
  uploads_iff 1 (by decide)

/-- The longest file a header can announce gets a block of no bytes, and the epoll server asks
for none of the bytes of one of 2^31. -/
theorem long_uploads_lost : ¬ SessionUploads 4294967295 ∧ ¬ ConnUploads 2147483648 := by
  constructor
  · intro hu
    exact absurd (blockHolds_iff.mp hu.1) (by decide)
  · intro hu
    exact absurd hu.lt (by decide)

end PickUpLight.Requests
