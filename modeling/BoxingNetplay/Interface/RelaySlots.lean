import BoxingNetplay.Interface.RelayTables

/-!
# Slots while an event is handled

Whatever the tables hold, and however sends and drops nest, handling an event takes no
slot: a slot in use after any of the handlers' functions was in use before it, in the same
generation.  Only `accept_client` takes slots, and no handler calls it.
-/

set_option autoImplicit false

namespace BoxingNetplay.Interface.IntvRelay

open BoxingNetplay.Model.Wire
open BoxingNetplay.Model.IntvRelay

/-- The slots in use were in use before, in the same generation. -/
def Steady (s s' : Relay) : Prop :=
  ∀ c, (s'.clients c).in_use = true →
    (s.clients c).in_use = true ∧ (s'.clients c).gen = (s.clients c).gen

namespace Steady

variable {s s' s'' : Relay}

theorem refl (s : Relay) : Steady s s := fun _ hu => ⟨hu, rfl⟩

theorem trans (h : Steady s s') (h' : Steady s' s'') : Steady s s'' := by
  intro c hu
  obtain ⟨h1, h2⟩ := h' c hu
  obtain ⟨k1, k2⟩ := h c h1
  exact ⟨k1, h2.trans k2⟩

/-- Only the slots matter. -/
theorem of_clients (h : s'.clients = s.clients) : Steady s s' := by
  intro c hu
  rw [h] at hu ⊢
  exact ⟨hu, rfl⟩

/-- What a loop does in each of its rounds it does as a whole. -/
theorem foldl {α : Type} (f : Relay → α → Relay) (hf : ∀ s a, Steady s (f s a)) (l : List α)
    (s : Relay) : Steady s (l.foldl f s) := by
  induction l generalizing s with
  | nil => exact refl s
  | cons a l ih => exact (hf s a).trans (ih (f s a))

end Steady

/-- A change of a client's data keeps its slot as it is. -/
theorem steady_modify (s : Relay) (ci : ℕ) (f : Client → Client)
    (hf : ∀ c, (f c).in_use = c.in_use ∧ (f c).gen = c.gen) : Steady s (s.modify ci f) := by
  intro c hu
  by_cases hc : c = ci
  · subst hc
    rw [modify_self] at hu ⊢
    rw [(hf _).1] at hu
    exact ⟨hu, (hf _).2⟩
  · rw [modify_of_ne s f hc] at hu ⊢
    exact ⟨hu, rfl⟩

/-- A slot that is freed is not in use. -/
theorem steady_free (s : Relay) (ci : ℕ) : Steady s (client_free s ci) := by
  intro c hu
  by_cases hc : c = ci
  · subst hc
    simp only [client_free, modify_self] at hu
    cases hu
  · rw [client_free_of_ne s hc] at hu ⊢
    exact ⟨hu, rfl⟩

/-! ### Sending -/

section Sending

variable {drop : Relay → ℕ → Relay} (hd : ∀ s ci, Steady s (drop s ci))

include hd

/-- Handing the queue to the kernel brings no slot into use. -/
theorem steady_flush (s : Relay) (ci : ℕ) : Steady s (flush drop s ci) := by
  have h := steady_modify s ci (fun c =>
    { c with
      tx := (transmit s.kernel (s.clients ci).tx).left
      wire := c.wire ++ (transmit s.kernel (s.clients ci).tx).taken }) fun _ => ⟨rfl, rfl⟩
  simp only [flush]
  split
  · exact Steady.trans (h.trans (Steady.of_clients rfl)) (hd _ ci)
  · exact h.trans (Steady.of_clients rfl)

theorem steady_send_raw (s : Relay) (o : Origin) (ci : ℕ) (data : List ℕ) :
    Steady s (send_raw drop s o ci data) := by
  simp only [send_raw]
  split
  · exact Steady.refl s
  split
  · exact hd s ci
  · refine Steady.trans ?_ (steady_flush hd _ ci)
    exact steady_modify s ci _ fun _ => ⟨rfl, rfl⟩

theorem steady_send_frame (s : Relay) (o : Origin) (ci ftype : ℕ) (payload : List ℕ) :
    Steady s (send_frame drop s o ci ftype payload) := steady_send_raw hd s o ci _

theorem steady_room_broadcast (s : Relay) (ri : ℕ) : Steady s (room_broadcast drop s ri) := by
  simp only [room_broadcast]
  apply Steady.foldl
  intro s m
  exact steady_send_frame hd s _ m _ _

theorem steady_dissolve (s : Relay) (ri : ℕ) (notify : List ℕ) :
    Steady s (dissolve drop s ri notify) := by
  simp only [dissolve]
  refine Steady.trans ?_ (Steady.of_clients rfl)
  have h1 := Steady.foldl (fun s m => s.modify m fun c => { c with room := none })
    (fun s m => steady_modify s m _ fun _ => ⟨rfl, rfl⟩) (s.rooms ri).members s
  refine h1.trans ?_
  apply Steady.foldl
  intro s m
  exact steady_send_frame hd s _ m _ _

theorem steady_unpair (s : Relay) (ri : ℕ) : Steady s (unpair drop s ri) := by
  simp only [unpair]
  split
  · refine Steady.trans ?_ (steady_send_frame hd _ _ _ _ _)
    refine Steady.trans (Steady.of_clients rfl) (steady_modify _ _ _ ?_)
    exact fun _ => ⟨rfl, rfl⟩
  · exact Steady.of_clients rfl

theorem steady_leave (s : Relay) (ri ci : ℕ) (seat : Option ℕ) :
    Steady s (leave drop s ri ci seat) := by
  simp only [leave]
  split
  · refine (steady_dissolve hd s ri []).trans ?_
    apply Steady.foldl
    intro s m
    exact steady_send_frame hd s _ m _ _
  split
  · exact steady_dissolve hd s ri _
  split
  · exact steady_dissolve hd s ri _
  · exact steady_room_broadcast hd s ri

theorem steady_dropBody (cfg : Config) (s : Relay) (ci : ℕ) :
    Steady s (dropBody drop cfg s ci) := by
  have hmark := steady_modify s ci (fun c => { c with dead := true }) fun _ => ⟨rfl, rfl⟩
  have hun : Steady s (unlist s ci) := hmark.trans (Steady.of_clients rfl)
  simp only [dropBody]
  split
  · exact Steady.refl s
  split
  · exact hun.trans (steady_free _ ci)
  · rename_i ri hri
    have hsolo := steady_modify (unlist s ci) ci (fun c => { c with room := none })
      fun _ => ⟨rfl, rfl⟩
    have hva : Steady (unlist s ci) (vacate (unlist s ci) ri ci) :=
      hsolo.trans (Steady.of_clients rfl)
    refine (hun.trans hva).trans (Steady.trans ?_ (steady_free _ ci))
    split
    · exact steady_unpair hd _ ri
    · exact steady_leave hd _ ri ci _

end Sending

/-- However deep drops nest. -/
theorem steady_dropFuel (cfg : Config) (n : ℕ) (s : Relay) (ci : ℕ) :
    Steady s (dropFuel cfg n s ci) := by
  induction n generalizing s ci with
  | zero =>
    simp only [dropFuel]
    split
    · exact Steady.refl s
    · exact Steady.of_clients rfl
  | succ n ih => exact steady_dropBody ih cfg s ci

/-- No drop brings a slot into use. -/
theorem steady_drop (cfg : Config) (s : Relay) (ci : ℕ) : Steady s (drop cfg s ci) :=
  steady_dropFuel cfg MAX_CLIENTS s ci

/-! ### Handlers -/

section Handlers

variable (cfg : Config)

theorem steady_send (s : Relay) (o : Origin) (ci ftype : ℕ) (payload : List ℕ) :
    Steady s (send_frame (drop cfg) s o ci ftype payload) :=
  steady_send_frame (steady_drop cfg) s o ci ftype payload

theorem steady_on_list (s : Relay) (ci : ℕ) : Steady s (on_list cfg s ci) :=
  steady_send cfg s _ ci _ _

/-- Setting a name touches no slot. -/
theorem clients_name_set (s : Relay) (name : List ℕ) (ci : ℕ) :
    (name_set s name ci).clients = s.clients := by
  simp only [name_set]
  split
  · rfl
  split
  · rfl
  · rfl

/-- A new name brings no slot into use. -/
theorem steady_rename (s : Relay) (ci : ℕ) (name : List ℕ) :
    Steady s (rename cfg s ci name) := by
  simp only [rename]
  refine Steady.trans ?_ (steady_on_list cfg _ ci)
  refine Steady.trans ?_ (Steady.of_clients (clients_name_set ..))
  refine Steady.trans ?_ (steady_modify _ ci _ fun _ => ⟨rfl, rfl⟩)
  split
  · exact Steady.of_clients rfl
  · exact Steady.refl s

theorem steady_on_hello (s : Relay) (ci : ℕ) (payload : List ℕ) :
    Steady s (on_hello cfg s ci payload) := by
  have hd := steady_drop cfg
  simp only [on_hello]
  split
  · exact hd s ci
  split
  · exact hd s ci
  split
  · exact hd s ci
  split
  · exact hd s ci
  split
  · rename_i old hold
    split
    · split
      · exact hd s old
      · exact (hd s old).trans (steady_rename cfg _ ci _)
    · exact steady_rename cfg s ci _
  · exact steady_rename cfg s ci _

theorem steady_start_room (s : Relay) (ri : ℕ) : Steady s (start_room cfg s ri) := by
  simp only [start_room, next_seed]
  refine Steady.trans (Steady.of_clients rfl) (Steady.foldl _ ?_ _ _)
  intro s m
  exact steady_send cfg s _ m.1 _ _

/-- Opening a room touches no slot. -/
theorem clients_room_alloc (s : Relay) (host : ℕ) :
    (room_alloc s host).2.clients = s.clients := by
  simp only [room_alloc]
  split
  · rfl
  · rfl

/-- Starting a pair brings no slot into use. -/
theorem steady_start_pair (s : Relay) (host guest : ℕ) :
    Steady s (start_pair cfg s host guest) := by
  simp only [start_pair, next_seed]
  have hr := clients_room_alloc { s with seeds := s.seeds.tail } host
  split
  · rename_i s' heq
    rw [heq] at hr
    exact Steady.trans (Steady.of_clients hr) (steady_on_list cfg s' guest)
  · rename_i ri s' heq
    rw [heq] at hr
    refine Steady.trans ?_ (steady_send cfg _ _ guest _ _)
    refine Steady.trans ?_ (steady_send cfg _ _ host _ _)
    refine Steady.trans ?_ (steady_modify _ guest _ fun _ => ⟨rfl, rfl⟩)
    refine Steady.trans ?_ (steady_modify _ host _ fun _ => ⟨rfl, rfl⟩)
    exact Steady.of_clients hr

theorem steady_announce (s : Relay) (ri : ℕ) : Steady s (announce cfg s ri) := by
  have hb := steady_room_broadcast (steady_drop cfg) s ri
  simp only [announce]
  split
  · exact hb.trans (steady_start_room cfg _ ri)
  · exact hb

theorem steady_join (s : Relay) (ri ci : ℕ) : Steady s (join cfg s ri ci) := by
  simp only [join]
  refine Steady.trans ?_ (steady_announce cfg _ ri)
  exact (Steady.of_clients rfl).trans (steady_modify _ ci _ fun _ => ⟨rfl, rfl⟩)

theorem steady_on_join (s : Relay) (ci : ℕ) (payload : List ℕ) :
    Steady s (on_join cfg s ci payload) := by
  simp only [on_join]
  split
  · exact steady_drop cfg s ci
  split
  · exact Steady.refl s
  split
  · exact steady_on_list cfg s ci
  split
  · exact steady_on_list cfg s ci
  rename_i target htarget
  split
  · exact steady_on_list cfg s ci
  split
  · exact steady_start_pair cfg s target ci
  split
  · exact steady_join cfg s _ ci
  have hr := clients_room_alloc s target
  split
  · rename_i s' heq
    rw [heq] at hr
    exact (Steady.of_clients hr).trans (steady_on_list cfg s' ci)
  · rename_i ri s' heq
    rw [heq] at hr
    refine (Steady.of_clients hr).trans (Steady.trans ?_ (steady_join cfg _ ri ci))
    exact steady_modify s' target _ fun _ => ⟨rfl, rfl⟩

theorem steady_on_go (s : Relay) (ci : ℕ) : Steady s (on_go cfg s ci) := by
  simp only [on_go]
  split
  · exact Steady.refl s
  split
  · exact Steady.refl s
  split
  · exact Steady.refl s
  · exact steady_start_room cfg s _

theorem steady_relay (s : Relay) (ci ftype : ℕ) (payload : List ℕ) :
    Steady s (relay cfg s ci ftype payload) := by
  simp only [relay]
  split
  · exact Steady.refl s
  split
  · apply Steady.foldl
    intro s m
    split
    · exact steady_send_raw (steady_drop cfg) s _ m _
    · exact Steady.refl s
  · exact Steady.refl s

/-- No frame brings a slot into use. -/
theorem steady_handle (s : Relay) (ci ftype : ℕ) (payload : List ℕ) :
    Steady s (handle cfg s ci ftype payload) := by
  have hd := steady_drop cfg s ci
  simp only [handle]
  split
  · exact steady_relay cfg s ci ftype payload
  split
  · exact steady_on_hello cfg s ci payload
  split
  · exact steady_on_list cfg s ci
  split
  · exact steady_on_join cfg s ci payload
  split
  · split
    · exact hd
    · exact steady_on_go cfg s ci
  split
  · exact hd
  split
  · exact steady_send cfg s _ ci _ _
  · exact hd

theorem steady_takeFrame (s : Relay) (ci : ℕ) : Steady s (takeFrame cfg s ci) := by
  simp only [takeFrame]
  refine Steady.trans ?_ (steady_handle cfg _ ci _ _)
  exact steady_modify s ci _ fun _ => ⟨rfl, rfl⟩

theorem steady_drain (fuel : ℕ) (s : Relay) (ci : ℕ) : Steady s (drain cfg fuel s ci) := by
  induction fuel generalizing s with
  | zero => exact Steady.refl s
  | succ fuel ih =>
    simp only [drain]
    split
    · exact Steady.refl s
    split
    · exact steady_drop cfg s ci
    split
    · exact Steady.refl s
    have ht := steady_takeFrame cfg s ci
    split
    · exact ht
    · exact ht.trans (ih _)

/-- The part of `feed` for one filling of the buffer. -/
theorem steady_fill (s : Relay) (ci : ℕ) (p : List ℕ) :
    Steady s (drain cfg RX_CAP
      (s.modify ci fun c => { c with rx := c.rx ++ p, received := c.received ++ p }) ci) := by
  refine Steady.trans ?_ (steady_drain cfg RX_CAP _ ci)
  exact steady_modify s ci _ fun _ => ⟨rfl, rfl⟩

/-- A chunk that is read brings no slot into use, however long it is. -/
theorem steady_feed (fuel : ℕ) (s : Relay) (ci : ℕ) (p : List ℕ) :
    Steady s (feed cfg fuel s ci p) := by
  induction fuel generalizing s p with
  | zero => exact Steady.refl s
  | succ fuel ih =>
    simp only [feed]
    split
    · exact Steady.refl s
    split
    · exact (Steady.of_clients rfl).trans (steady_drop cfg _ ci)
    have hf := steady_fill cfg s ci (p.take (RX_CAP - (s.clients ci).rx.length))
    split
    · exact hf
    · exact hf.trans (ih _ _)

/-- No event of a connection brings a slot into use. -/
theorem steady_service (s : Relay) (ci : ℕ) (r : Recv) : Steady s (service cfg s ci r) := by
  cases r with
  | blocked => exact Steady.refl s
  | failed => exact steady_drop cfg s ci
  | got data =>
    simp only [service]
    split
    · exact steady_drop cfg s ci
    · exact steady_feed cfg data.length s ci data

end Handlers

end BoxingNetplay.Interface.IntvRelay
