import PerchWebrtc.Framework.Machine
import PerchWebrtc.Turn.Permissions

/-!
# The channels of a TURN allocation

What `HandleChannelBindRequest` (`turnserver.cc`) leaves of the channels: numbers and addresses of
peers that are bound to each other, each of them once. The lookups are compared as pointers there;
that channels are compared here is the same, since no two of them are equal.

* `Bijective.refresh`, `Bijective.bind`, `Bijective.destroy`: the three changes;
* `always_bijective`: runs.
-/

namespace PerchWebrtc.Turn

open Net (SocketAddress)
open Stun (StunMessage)

/-- What a refresh of a channel leaves. -/
def Channel.binding (channel : Channel) : ℕ × SocketAddress := (channel.id, channel.peer)

@[simp] theorem Channel.binding_refresh (channel : Channel) (now : ℕ) :
    (channel.refresh now).binding = channel.binding := rfl

/-- Neither the number nor the address is the same. -/
def Separate (a b : ℕ × SocketAddress) : Prop := a.1 ≠ b.1 ∧ a.2.equal b.2 = false

/-- No two channels share a number or an address, and the numbers are those of channels. -/
structure Bijective (channels : List Channel) : Prop where
  separate : (channels.map Channel.binding).Pairwise Separate
  number : ∀ binding ∈ channels.map Channel.binding,
    kMinChannelNumber ≤ binding.1 ∧ binding.1 ≤ kMaxChannelNumber

theorem map_replace {α β : Type*} [DecidableEq α] {f : α → β} {a b : α} (h : f b = f a) :
    ∀ l : List α, (l.replace a b).map f = l.map f
  | [] => rfl
  | x :: l => by
    rw [List.replace_cons]
    cases hx : a == x with
    | true => rw [List.map_cons, List.map_cons, h, beq_iff_eq.mp hx]
    | false => rw [List.map_cons, List.map_cons, map_replace h l]

namespace Bijective

variable {channels : List Channel} {channel : Channel}

theorem refresh (h : Bijective channels) (channel : Channel) (now : ℕ) :
    Bijective (channels.replace channel (channel.refresh now)) := by
  have hbindings := map_replace (channel.binding_refresh now) channels
  exact ⟨hbindings ▸ h.separate, hbindings ▸ h.number⟩

theorem bind (h : Bijective channels)
    (hfree : ∀ other ∈ channels, Separate other.binding channel.binding)
    (hnumber : kMinChannelNumber ≤ channel.id ∧ channel.id ≤ kMaxChannelNumber) :
    Bijective (channels ++ [channel]) := by
  refine ⟨?_, fun binding hbinding => ?_⟩
  · rw [List.map_append, List.map_singleton, List.pairwise_append]
    refine ⟨h.separate, List.pairwise_singleton _ _, fun binding hbinding last hlast => ?_⟩
    obtain ⟨other, hother, rfl⟩ := List.mem_map.mp hbinding
    rw [List.mem_singleton.mp hlast]
    exact hfree other hother
  · rw [List.map_append, List.mem_append] at hbinding
    rcases hbinding with hold | hnew
    · exact h.number binding hold
    · rw [List.mem_singleton.mp hnew]
      exact hnumber

theorem destroy (h : Bijective channels) (channel : Channel) :
    Bijective (channels.erase channel) := by
  have hsub : ((channels.erase channel).map Channel.binding).Sublist
      (channels.map Channel.binding) := List.erase_sublist.map _
  exact ⟨h.separate.sublist hsub, fun binding hbinding => h.number binding (hsub.subset hbinding)⟩

end Bijective

namespace AllocationState

variable {s : AllocationState}

theorem addPermission_channels (s : AllocationState) (now : ℕ) (addr : Net.IPAddress) :
    (s.addPermission now addr).channels = s.channels := by
  rw [addPermission]
  cases s.findPermission addr <;> rfl

/-- The checks of a request that is not rejected: the number and the address are both free, or
they are bound to each other. -/
theorem checkChannelBind_some {msg : StunMessage} {channelId : ℕ} {peer : SocketAddress}
    (h : s.checkChannelBind msg = some (channelId, peer)) :
    (kMinChannelNumber ≤ channelId ∧ channelId ≤ kMaxChannelNumber) ∧
      s.findChannel channelId = s.findChannelOf peer := by
  simp only [checkChannelBind, Option.bind_eq_bind, Option.bind_eq_some_iff] at h
  obtain ⟨value, -, peer', -, h⟩ := h
  split_ifs at h with hnumber hother
  obtain ⟨rfl, rfl⟩ := Prod.mk.inj (Option.some.inj h)
  exact ⟨by omega, not_not.mp hother⟩

theorem handleChannelBindRequest_bijective (hs : Bijective s.channels) (now : ℕ)
    (msg : StunMessage) : Bijective (s.handleChannelBindRequest now msg).1.channels := by
  rw [handleChannelBindRequest]
  cases hcheck : s.checkChannelBind msg with
  | none => exact hs
  | some bound =>
    obtain ⟨channelId, peer⟩ := bound
    obtain ⟨hnumber, hsame⟩ := checkChannelBind_some hcheck
    dsimp only
    rw [addPermission_channels]
    cases hfind : s.findChannel channelId with
    | none =>
      rw [hfind] at hsame
      refine hs.bind (fun other hother => ?_) hnumber
      have hid : ¬decide (other.id = channelId) = true := List.find?_eq_none.mp hfind other hother
      have hpeer : ¬other.peer.equal peer = true := List.find?_eq_none.mp hsame.symm other hother
      exact ⟨of_decide_eq_false (Bool.eq_false_iff.mpr hid), Bool.eq_false_iff.mpr hpeer⟩
    | some channel => exact hs.refresh channel now

/-- The requests that are answered with an error. -/
def Rejects (s : AllocationState) (input : ℕ × Event) : Prop :=
  ∀ msg, input.2 = .turnMessage msg → msg.type = TURN_CHANNEL_BIND_REQUEST →
    (s.step input.1 input.2).2 = [.badRequest] → (s.step input.1 input.2).1 = s

theorem step_rejects (s : AllocationState) (input : ℕ × Event) : s.Rejects input := by
  rintro msg hevent hbind hrejected
  have hstep : s.step input.1 input.2 = s.handleChannelBindRequest input.1 msg := by
    rw [hevent, step, handleTurnMessage, hbind, if_neg (by decide), if_neg (by decide), if_pos rfl]
  rw [hstep, handleChannelBindRequest] at hrejected ⊢
  cases hcheck : s.checkChannelBind msg with
  | none => rfl
  | some bound =>
    rw [hcheck] at hrejected
    exact absurd (List.singleton_inj.mp hrejected) (by decide)

theorem step_bijective (hs : Bijective s.channels) (now : ℕ) (event : Event) :
    Bijective (s.step now event).1.channels := by
  cases event with
  | turnMessage msg =>
    rw [step, handleTurnMessage]
    split_ifs
    · exact hs
    · rw [handleCreatePermissionRequest]
      cases msg.getAddress Stun.STUN_ATTR_XOR_PEER_ADDRESS with
      | none => exact hs
      | some peer => exact (addPermission_channels s now peer.ip).symm ▸ hs
    · exact handleChannelBindRequest_bijective hs now msg
    · exact hs
  | channelData data => exact hs
  | externalPacket data addr => exact hs
  | permissionTimeout perm => exact hs
  | channelTimeout channel => exact hs.destroy channel

/-- The state after an event at a time. -/
def next (s : AllocationState) (input : ℕ × Event) : AllocationState := (s.step input.1 input.2).1

theorem start_bijective : Bijective ({} : AllocationState).channels :=
  ⟨List.Pairwise.nil, fun _ hbinding => absurd hbinding List.not_mem_nil⟩

/-- In every run, with any messages and expirations at any times. -/
theorem always_bijective (inputs : List (ℕ × Event)) :
    Machine.Always next (fun s => Bijective s.channels) {} inputs ∧
      Machine.Along next Rejects {} inputs := by
  refine ⟨Machine.always_of_along (P := fun _ _ => True)
    (fun s input hs _ => step_bijective hs input.1 input.2) start_bijective
    (Machine.along_of_forall (fun _ _ => trivial) _ _), ?_⟩
  exact Machine.along_of_forall step_rejects _ _

end AllocationState

end PerchWebrtc.Turn
