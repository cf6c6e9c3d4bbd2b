import Flannel.Lease.Keyed

/-!
# What a watcher says about one event

The backends act on the events that `LeaseWatcher::update` emits, one after another.
For a watcher whose leases all carry the same enable flags, one event that comes in
leads to one of three things (`update_one`): nothing, if it is about the own subnet; an
`Added` event with the lease that came in, which is now the one stored for its subnet;
or a `Removed` event, after which nothing is stored for the subnet.  The `Removed` event
carries the lease that *was* stored; only if there was none, it carries the one that came
in.
-/

namespace Flannel
namespace LeaseWatcher

open KeyedList

variable {v4 v6 : Bool}

/-- What the emitted events say about the step from one watcher to the next. -/
inductive Emits (v4 v6 : Bool) (lw lw' : LeaseWatcher) (e : Event) : List Event → Prop where
  | nothing (hown : isOwn lw.ownLease e.lease = true) (hsame : lw' = lw) : Emits v4 v6 lw lw' e []
  | added (hown : isOwn lw.ownLease e.lease = false) (htype : e.eventType = .added)
      (hleases : ∀ x, x ∈ lw'.leases ↔
        x = e.lease ∨ x ∈ lw.leases ∧ x.key v4 v6 ≠ e.lease.key v4 v6) :
      Emits v4 v6 lw lw' e [⟨.added, e.lease⟩]
  | removed (hown : isOwn lw.ownLease e.lease = false) (htype : e.eventType = .removed) (l : Lease)
      (hflags : l.HasFlags v4 v6) (hkey : l.key v4 v6 = e.lease.key v4 v6)
      (hstored : l ∈ lw.leases ∨
        l = e.lease ∧ ∀ x ∈ lw.leases, x.key v4 v6 ≠ e.lease.key v4 v6)
      (hleases : ∀ x, x ∈ lw'.leases ↔ x ∈ lw.leases ∧ x.key v4 v6 ≠ e.lease.key v4 v6) :
      Emits v4 v6 lw lw' e [⟨.removed, l⟩]

theorem update_single_of_own {lw : LeaseWatcher} {e : Event}
    (h : isOwn lw.ownLease e.lease = true) : lw.update [e] = (lw, []) := by
  rw [update_cons_own h, update_nil]

theorem update_single {lw : LeaseWatcher} {e : Event} (h : isOwn lw.ownLease e.lease = false) :
    lw.update [e] = ((lw.applyEvent e).1, [(lw.applyEvent e).2]) := by
  rw [update_cons h, update_nil]

/-- The lease that a removal reports. -/
theorem remove_event {lw : LeaseWatcher} (h : lw.Keyed v4 v6) {l : Lease}
    (hl : l.HasFlags v4 v6) :
    ∃ x, (lw.remove l).2 = ⟨.removed, x⟩ ∧ x.HasFlags v4 v6 ∧ x.key v4 v6 = l.key v4 v6 ∧
      (x ∈ lw.leases ∨ x = l ∧ ∀ y ∈ lw.leases, y.key v4 v6 ≠ l.key v4 v6) := by
  unfold remove
  split
  · rename_i pre x post hmatch
    obtain ⟨hsplit, hkey⟩ := key_eq_of_firstMatch h.flags hmatch
    have hmem : x ∈ lw.leases := by
      rw [hsplit]
      exact List.mem_append_right _ List.mem_cons_self
    exact ⟨x, rfl, h.flags x hmem, hkey, Or.inl hmem⟩
  · rename_i hnone
    have habsent := key_notMem_of_firstMatch h.flags hnone
    exact ⟨l, rfl, hl, rfl, Or.inr ⟨rfl, fun y hy hkey => habsent
      (List.mem_map.mpr ⟨y, hy, hkey⟩)⟩⟩

/-- **One event.** -/
theorem update_one {lw : LeaseWatcher} (h : lw.Keyed v4 v6) {e : Event}
    (he : e.lease.HasFlags v4 v6) :
    (lw.update [e]).1.Keyed v4 v6 ∧
      Emits v4 v6 lw (lw.update [e]).1 e (lw.update [e]).2 := by
  obtain ⟨et, l⟩ := e
  cases hown : isOwn lw.ownLease l with
  | true =>
    rw [update_single_of_own hown]
    exact ⟨h, .nothing hown rfl⟩
  | false =>
    cases et with
    | added =>
      obtain ⟨hkeyed, hleases⟩ := update_added h he hown
      have hevents : (lw.update [⟨.added, l⟩]).2 = [⟨.added, l⟩] := by
        rw [update_single hown]
        simp [applyEvent]
      rw [hevents]
      exact ⟨hkeyed, .added hown rfl hleases⟩
    | removed =>
      obtain ⟨hkeyed, hleases⟩ := update_removed h he hown
      obtain ⟨x, hx, hflags, hkey, hstored⟩ := remove_event h he
      have hevents : (lw.update [⟨.removed, l⟩]).2 = [⟨.removed, x⟩] := by
        rw [update_single hown]
        simp [applyEvent, hx]
      rw [hevents]
      exact ⟨hkeyed, .removed hown rfl x hflags hkey hstored hleases⟩

end LeaseWatcher
end Flannel
