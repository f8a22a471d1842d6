import PerchWebrtc.Pacing.PacedSender

/-!
# What is sent on the budget

Packets that are sent while the budget of the interval lasts, and not because nothing was sent for
too long. What they cost is taken from what time has brought in: `Budgeted` holds a bound on both
together, and on all packets but the last.

* `processLoop_budgeted`, `process_budgeted`: what each function keeps;
* `sent_le`: what is sent between two calls of `Process`.
-/

namespace PerchWebrtc.Pacing

def bytesOf (packets : List Packet) : Int := (packets.map (·.bytes)).sum

theorem bytesOf_append (l l' : List Packet) : bytesOf (l ++ l') = bytesOf l + bytesOf l' := by
  rw [bytesOf, List.map_append, List.sum_append]
  rfl

/-- The size of the last packet. -/
def lastBytes (packets : List Packet) : Int := (packets.getLast?.map (·.bytes)).getD 0

theorem bytesOf_dropLast (packets : List Packet) :
    bytesOf packets = bytesOf packets.dropLast + lastBytes packets := by
  rcases List.eq_nil_or_concat packets with rfl | ⟨front, last, rfl⟩
  · rfl
  · rw [List.concat_eq_append, bytesOf_append, List.dropLast_concat, lastBytes,
      List.getLast?_concat]
    simp [bytesOf]

/-! ## The budget -/

namespace IntervalBudget

/-- The `int` products of the rate fit. -/
structure InRange (rate : Int) : Prop where
  nonneg : 0 ≤ rate
  fits : 100 * rate < 2 ^ 31

/-- A number of bytes that is taken from a budget. -/
def Takeable (n : Int) : Prop := 0 ≤ n ∧ n < 2 ^ 30

/-- At a constant rate, the budget never leaves what 100 ms are worth. -/
structure Sound (rate : Int) (b : IntervalBudget) : Prop where
  targetRateKbps : b.targetRateKbps = rate
  floor_le : -(100 * rate / 8) ≤ b.bytesRemaining
  le_ceiling : b.bytesRemaining ≤ 100 * rate / 8

variable {rate n : Int} {b : IntervalBudget}

theorem floor_eq (hrate : InRange rate) : (int32 (-100 * rate)).tdiv 8 = -(100 * rate / 8) := by
  have hnonneg := hrate.nonneg
  have hfits := hrate.fits
  rw [int32_of_fits (by omega) (by omega), neg_mul, Int.neg_tdiv,
    Int.tdiv_eq_ediv_of_nonneg (by omega)]

theorem increaseBudget_sound (hrate : InRange rate) (h : b.Sound rate) (hn : 0 ≤ n)
    (hinterval : n ≤ kMaxIntervalTimeMs) :
    (b.increaseBudget n).Sound rate ∧
      8 * (b.increaseBudget n).bytesRemaining ≤ 8 * min b.bytesRemaining 0 + rate * n := by
  have hfloor := h.floor_le
  have hceiling := h.le_ceiling
  have hfits := hrate.fits
  have hnonneg : 0 ≤ rate * n := mul_nonneg hrate.nonneg hn
  have hle : rate * n ≤ rate * 30 := mul_le_mul_of_nonneg_left hinterval hrate.nonneg
  have hbytes : (int32 (rate * n)).tdiv 8 = rate * n / 8 := by
    rw [int32_of_fits (by omega) (by omega), Int.tdiv_eq_ediv_of_nonneg hnonneg]
  unfold increaseBudget
  dsimp only
  rw [h.targetRateKbps, hbytes]
  split
  · rw [int32_of_fits (by omega) (by omega)]
    exact ⟨⟨rfl, by dsimp only; omega, by dsimp only; omega⟩, by omega⟩
  · exact ⟨⟨rfl, by dsimp only; omega, by dsimp only; omega⟩, by omega⟩

theorem useBudget_bytesRemaining (hrate : InRange rate) (h : b.Sound rate) (hn : Takeable n) :
    (b.useBudget n).bytesRemaining = max (b.bytesRemaining - n) (-(100 * rate / 8)) := by
  have hfloor := h.floor_le
  have hceiling := h.le_ceiling
  have hfits := hrate.fits
  obtain ⟨hnonneg, hsmall⟩ := hn
  unfold useBudget
  dsimp only
  rw [h.targetRateKbps, floor_eq hrate, int32_of_fits (by omega) (by omega)]

theorem useBudget_sound (hrate : InRange rate) (h : b.Sound rate) (hn : Takeable n) :
    (b.useBudget n).Sound rate ∧ (b.useBudget n).bytesRemaining ≤ b.bytesRemaining := by
  have hfloor := h.floor_le
  have hle : (b.useBudget n).bytesRemaining ≤ b.bytesRemaining := by
    rw [useBudget_bytesRemaining hrate h hn]
    exact max_le (by have := hn.1; omega) hfloor
  refine ⟨⟨h.targetRateKbps, ?_, hle.trans h.le_ceiling⟩, hle⟩
  rw [useBudget_bytesRemaining hrate h hn]
  exact le_max_right _ _

/-- While the budget lasts, a packet of up to 100 ms is taken from it as a whole. -/
theorem useBudget_eq (hrate : InRange rate) (h : b.Sound rate) (hlast : 0 < b.bytesRemaining)
    (hn : 0 ≤ n) (hlight : 8 * n ≤ 100 * rate) :
    (b.useBudget n).bytesRemaining = b.bytesRemaining - n := by
  have hfits := hrate.fits
  rw [useBudget_bytesRemaining hrate h ⟨hn, by omega⟩]
  exact max_eq_left (by omega)

end IntervalBudget

namespace PacedSender

/-- The packets that the loop of `Process` sends while the budget lasts. -/
def sentOnBudget (env : Env) : Nat → PacedSender → List Packet
  | 0, _ => []
  | fuel + 1, s =>
    match s.shouldSendNextPacket env with
    | (none, _) => []
    | (some priority, s₁) =>
      match (s₁.packets priority).packetList with
      | [] => []
      | packet :: _ =>
        match (s₁.updateMediaBytesSent env packet.bytes).offer env priority packet with
        | (false, _) => []
        | (true, s₂) =>
          (if 0 < s.mediaBudget.bytesRemaining then [packet] else []) ++
            sentOnBudget env fuel (s₂.accept priority packet)

/-- The packets that a call sends while the budget lasts. -/
def callSent (env : Env) (s : PacedSender) : Call → List Packet
  | .process =>
    match s.startProcess env with
    | (false, _) => []
    | (true, s) => sentOnBudget env (s.queued + 1) s
  | _ => []

def sentIn (env : Env) : List Call → PacedSender → List Packet
  | [], _ => []
  | c :: calls, s => s.callSent env c ++ sentIn env calls (s.call env c)

/-- A packet of up to 100 ms. -/
def Light (rate : Int) (packet : Packet) : Prop := 0 ≤ packet.bytes ∧ 8 * packet.bytes ≤ 100 * rate

theorem Light.takeable {rate : Int} {packet : Packet} (h : Light rate packet)
    (hrate : IntervalBudget.InRange rate) : IntervalBudget.Takeable packet.bytes :=
  ⟨h.1, by have := h.2; have := hrate.fits; omega⟩

/-- Packets are of up to 100 ms, and the bitrate does not change. -/
def Constant (env : Env) (targetBitrateKbps : Int) : Call → Prop
  | .sendPacket _ _ _ _ bytes => 0 ≤ bytes ∧ 8 * bytes ≤ 100 * env.pace targetBitrateKbps
  | .updateBitrate target _ => target = targetBitrateKbps
  | _ => True

/-- When `Process` is not held back, time has passed since it was called last. -/
def TimePasses (env : Env) (s : PacedSender) (c : Call) : Prop :=
  c = .process → s.enabled = true → s.paused = false →
    0 < int32 (env.now s.nowCalls - s.timeLastUpdate)

/-- The state at a constant rate. -/
structure Steady (env : Env) (rate : Int) (s : PacedSender) : Prop where
  budget : s.mediaBudget.Sound rate
  light : ∀ priority, ∀ packet ∈ (s.packets priority).packetList, Light rate packet
  time : s.timeLastUpdate ≤ env.now s.nowCalls

/-- A bound, in bits, on what was sent and what is left, and on all that was sent but the last
packet. -/
structure Budgeted (bits : Int) (s : PacedSender) (sent : List Packet) : Prop where
  total : 8 * (bytesOf sent + s.mediaBudget.bytesRemaining) ≤ bits
  dropLast : 8 * bytesOf sent.dropLast ≤ bits

/-- The same, where a budget that is left over is not used any more. -/
structure Carried (bits : Int) (s : PacedSender) (sent : List Packet) : Prop where
  total : 8 * (bytesOf sent + min s.mediaBudget.bytesRemaining 0) ≤ bits
  dropLast : 8 * bytesOf sent.dropLast ≤ bits

section Steps

variable {env : Env} {rate bits : Int} {s s' : PacedSender} {sent : List Packet}

theorem Budgeted.of_le (h : Budgeted bits s sent)
    (hle : s'.mediaBudget.bytesRemaining ≤ s.mediaBudget.bytesRemaining) :
    Budgeted bits s' sent :=
  ⟨by have := h.total; omega, h.dropLast⟩

theorem Budgeted.carried (h : Budgeted bits s sent) : Carried bits s sent :=
  ⟨by have := h.total; omega, h.dropLast⟩

/-- A packet that is offered. -/
theorem Budgeted.offered (hrate : IntervalBudget.InRange rate) (hs : s.mediaBudget.Sound rate)
    (h : Budgeted bits s sent) {packet : Packet} (hpacket : Light rate packet)
    (hs' : s'.mediaBudget = s.mediaBudget.useBudget packet.bytes) :
    Budgeted bits s' (sent ++ if 0 < s.mediaBudget.bytesRemaining then [packet] else []) := by
  have hle := (IntervalBudget.useBudget_sound hrate hs (hpacket.takeable hrate)).2
  split
  · rename_i hlast
    have htotal := h.total
    have hbytes : bytesOf [packet] = packet.bytes := by simp [bytesOf]
    refine ⟨?_, ?_⟩
    · rw [hs', IntervalBudget.useBudget_eq hrate hs hlast hpacket.1 hpacket.2, bytesOf_append, hbytes]
      omega
    · rw [List.dropLast_concat]
      omega
  · rw [List.append_nil]
    exact h.of_le (by rw [hs']; exact hle)

/-- Time goes on, and no packet comes in. -/
theorem Steady.next (hclock : Monotone env.now) (h : Steady env rate s)
    (hbudget : s'.mediaBudget.Sound rate)
    (hpackets : ∀ p, (s'.packets p).packetList <:+ (s.packets p).packetList)
    (htime : s'.timeLastUpdate = s.timeLastUpdate) (hcalls : s.nowCalls ≤ s'.nowCalls) :
    Steady env rate s' :=
  ⟨hbudget, fun p q hq => h.light p q ((hpackets p).subset hq), by
    rw [htime]
    exact h.time.trans (hclock hcalls)⟩

theorem offer_eq {priority : Priority} {packet : Packet} :
    ((s.updateMediaBytesSent env packet.bytes).offer env priority packet).2.mediaBudget =
        s.mediaBudget.useBudget packet.bytes ∧
      ((s.updateMediaBytesSent env packet.bytes).offer env priority packet).2.timeLastUpdate =
        s.timeLastUpdate ∧
      ((s.updateMediaBytesSent env packet.bytes).offer env priority packet).2.nowCalls =
        s.nowCalls + 1 ∧
      ∀ p, ((s.updateMediaBytesSent env packet.bytes).offer env priority packet).2.packets p =
        s.packets p :=
  ⟨rfl, rfl, rfl, by rintro (_ | _ | _) <;> rfl⟩

theorem suffix_setPackets {priority : Priority} (p : Priority) :
    ((s.setPackets (s.packets priority).popFront priority).packets p).packetList <:+
      (s.packets p).packetList := by
  by_cases hp : p = priority
  · subst hp
    rw [packets_setPackets_self, PacketList.popFront_packetList]
    exact List.tail_suffix _
  · rw [packets_setPackets_of_ne _ hp]

theorem accept_eq {priority : Priority} {packet : Packet} :
    (s.accept priority packet).mediaBudget = s.mediaBudget ∧
      (s.accept priority packet).timeLastUpdate = s.timeLastUpdate ∧
      (s.accept priority packet).nowCalls = s.nowCalls ∧
      ∀ p, ((s.accept priority packet).packets p).packetList <:+ (s.packets p).packetList := by
  have hset : (s.setPackets (s.packets priority).popFront priority).mediaBudget = s.mediaBudget ∧
      (s.setPackets (s.packets priority).popFront priority).timeLastUpdate = s.timeLastUpdate ∧
      (s.setPackets (s.packets priority).popFront priority).nowCalls = s.nowCalls := by
    cases priority <;> exact ⟨rfl, rfl, rfl⟩
  unfold accept
  dsimp only
  split
  · exact ⟨hset.1, hset.2.1, hset.2.2, suffix_setPackets⟩
  · exact ⟨hset.1, hset.2.1, hset.2.2, suffix_setPackets⟩

/-- What the loop sends is counted, and no time passes for it. -/
theorem processLoop_budgeted (hclock : Monotone env.now) (hrate : IntervalBudget.InRange rate) :
    ∀ (fuel : Nat) {s : PacedSender} {sent : List Packet}, Steady env rate s →
      Budgeted bits s sent →
      Steady env rate (processLoop env fuel s).2 ∧
        (processLoop env fuel s).2.timeLastUpdate = s.timeLastUpdate ∧
        Budgeted bits (processLoop env fuel s).2 (sent ++ sentOnBudget env fuel s)
  | 0, s, sent, hs, h => by
    rw [sentOnBudget, List.append_nil]
    exact ⟨hs, rfl, h⟩
  | fuel + 1, s, sent, hs, h => by
    obtain ⟨calls, hcalls, hshould⟩ := @shouldSendNextPacket_eq env s
    rw [processLoop, sentOnBudget]
    generalize s.shouldSendNextPacket env = next at hshould
    obtain ⟨_ | priority, s₁⟩ := next
    · dsimp only at hshould ⊢
      rw [hshould, List.append_nil]
      exact ⟨hs.next hclock hs.budget (fun p => by cases p <;> exact List.suffix_refl _) rfl hcalls,
        rfl, h.of_le (le_refl _)⟩
    · dsimp only at hshould ⊢
      have hlists : ∀ p, s₁.packets p = s.packets p := by
        rw [hshould]
        rintro (_ | _ | _) <;> rfl
      cases hlist : (s₁.packets priority).packetList with
      | nil =>
        dsimp only
        rw [hshould, List.append_nil]
        exact ⟨hs.next hclock hs.budget (fun p => by cases p <;> exact List.suffix_refl _) rfl hcalls,
          rfl, h.of_le (le_refl _)⟩
      | cons packet rest =>
        have hpacket : Light rate packet := by
          refine hs.light priority packet ?_
          rw [← hlists, hlist]
          exact List.mem_cons_self
        have hoffer := @offer_eq env s₁ priority packet
        dsimp only
        generalize (s₁.updateMediaBytesSent env packet.bytes).offer env priority packet = answer
          at hoffer
        obtain ⟨success, s₂⟩ := answer
        obtain ⟨hbudget, htime, hnow, hpackets⟩ := hoffer
        dsimp only at hbudget htime hnow hpackets
        have hbudget' : s₂.mediaBudget = s.mediaBudget.useBudget packet.bytes := by
          rw [hbudget, hshould]
        have htime' : s₂.timeLastUpdate = s.timeLastUpdate := by rw [htime, hshould]
        have hnext : Steady env rate s₂ := by
          refine hs.next hclock ?_ (fun p => ?_) ?_ ?_
          · rw [hbudget']
            exact (IntervalBudget.useBudget_sound hrate hs.budget (hpacket.takeable hrate)).1
          · rw [hpackets, hlists]
          · exact htime'
          · rw [hnow, hshould]
            exact hcalls.trans (Nat.le_succ _)
        have hoffered := h.offered hrate hs.budget hpacket hbudget'
        cases success with
        | false =>
          rw [List.append_nil]
          refine ⟨hnext, htime', h.of_le ?_⟩
          show s₂.mediaBudget.bytesRemaining ≤ _
          rw [hbudget']
          exact (IntervalBudget.useBudget_sound hrate hs.budget (hpacket.takeable hrate)).2
        | true =>
          obtain ⟨habudget, hatime, hanow, hapackets⟩ := @accept_eq s₂ priority packet
          have haccepted : Steady env rate (s₂.accept priority packet) :=
            hnext.next hclock (by rw [habudget]; exact hnext.budget) hapackets hatime
              (le_of_eq hanow.symm)
          obtain ⟨hsteady, hlast, hloop⟩ := processLoop_budgeted hclock hrate fuel haccepted
            (hoffered.of_le (le_of_eq (by rw [habudget])))
          rw [List.append_assoc] at hloop
          exact ⟨hsteady, hlast.trans (hatime.trans htime'), hloop⟩

/-- The bits that time brings in. -/
def brought (rate : Int) (s s' : PacedSender) : Int := rate * (s'.timeLastUpdate - s.timeLastUpdate)

/-- `Process` brings in at most what the time that passed is worth. -/
theorem startProcess_brings (hclock : Monotone env.now) (hrate : IntervalBudget.InRange rate)
    (hs : Steady env rate s) :
    Steady env rate (s.startProcess env).2 ∧ 0 ≤ brought rate s (s.startProcess env).2 ∧
      ((s.startProcess env).2.mediaBudget = s.mediaBudget ∧
          ¬ ((s.startProcess env).1 = true ∧ 0 < int32 (env.now s.nowCalls - s.timeLastUpdate)) ∨
        8 * (s.startProcess env).2.mediaBudget.bytesRemaining ≤
          8 * min s.mediaBudget.bytesRemaining 0 + brought rate s (s.startProcess env).2) := by
  obtain ⟨hflag, htime, hnow, -, -, hpackets, hbudget⟩ := @startProcess_eq env s
  have hlight : ∀ p, ∀ q ∈ ((s.startProcess env).2.packets p).packetList, Light rate q := by
    intro p q hq
    rw [hpackets] at hq
    exact hs.light p q hq
  have hclock' : (s.startProcess env).2.timeLastUpdate ≤
      env.now (s.startProcess env).2.nowCalls := by
    rw [htime, hnow]
    exact hclock (Nat.le_succ _)
  have hbrought : 0 ≤ brought rate s (s.startProcess env).2 := by
    unfold brought
    rw [htime]
    exact mul_nonneg hrate.nonneg (by have := hs.time; omega)
  split at hbudget
  · rename_i hgo
    set n := min kMaxIntervalTimeMs (int32 (env.now s.nowCalls - s.timeLastUpdate)) with hn
    have hnonneg : 0 ≤ n := by
      rw [hn, kMaxIntervalTimeMs]
      omega
    have hpassed : n ≤ env.now s.nowCalls - s.timeLastUpdate :=
      (min_le_right _ _).trans (int32_le (by have := hs.time; omega))
    obtain ⟨hsound, hle⟩ := IntervalBudget.increaseBudget_sound hrate hs.budget hnonneg
      (min_le_left _ _)
    rw [← hbudget] at hsound hle
    refine ⟨⟨hsound, hlight, hclock'⟩, hbrought, Or.inr (hle.trans ?_)⟩
    have hcap : rate * n ≤ brought rate s (s.startProcess env).2 := by
      unfold brought
      rw [htime]
      exact mul_le_mul_of_nonneg_left hpassed hrate.nonneg
    omega
  · rename_i hheld
    refine ⟨⟨by rw [hbudget]; exact hs.budget, hlight, hclock'⟩, hbrought, Or.inl ⟨hbudget, ?_⟩⟩
    rw [hflag, decide_eq_true_iff]
    exact hheld

theorem startProcess_budgeted (hclock : Monotone env.now) (hrate : IntervalBudget.InRange rate)
    (hs : Steady env rate s) (h : Budgeted bits s sent) :
    Budgeted (bits + brought rate s (s.startProcess env).2) (s.startProcess env).2 sent := by
  obtain ⟨-, hbrought, hbudget⟩ := startProcess_brings hclock hrate hs
  have htotal := h.total
  have hdropLast := h.dropLast
  refine ⟨?_, by omega⟩
  rcases hbudget with ⟨hsame, -⟩ | hle
  · rw [hsame]
    omega
  · omega

theorem startProcess_carried (hclock : Monotone env.now) (hrate : IntervalBudget.InRange rate)
    (hs : Steady env rate s) (h : Carried bits s sent) (hpasses : TimePasses env s .process) :
    if (s.startProcess env).1 then
      Budgeted (bits + brought rate s (s.startProcess env).2) (s.startProcess env).2 sent
    else Carried (bits + brought rate s (s.startProcess env).2) (s.startProcess env).2 sent := by
  obtain ⟨-, hbrought, hbudget⟩ := startProcess_brings hclock hrate hs
  obtain ⟨hflag, -⟩ := @startProcess_eq env s
  have htotal := h.total
  have hdropLast := h.dropLast
  split
  · rename_i hgo'
    have hgo := hgo'
    rw [hflag, decide_eq_true_iff] at hgo
    refine ⟨?_, by omega⟩
    rcases hbudget with ⟨-, hheld⟩ | hle
    · exact absurd ⟨hgo', hpasses rfl hgo.1 hgo.2⟩ hheld
    · omega
  · refine ⟨?_, by omega⟩
    rcases hbudget with ⟨hsame, -⟩ | hle
    · rw [hsame]
      omega
    · omega

theorem sendPadding_eq (hrate : IntervalBudget.InRange rate)
    (hpadding : ∀ n, IntervalBudget.Takeable (env.timeToSendPadding n))
    (hs : Steady env rate s) :
    Steady env rate (s.sendPadding env) ∧
      (s.sendPadding env).timeLastUpdate = s.timeLastUpdate ∧
      (s.sendPadding env).mediaBudget.bytesRemaining ≤ s.mediaBudget.bytesRemaining := by
  unfold sendPadding
  split
  · obtain ⟨hsound, hle⟩ := IntervalBudget.useBudget_sound hrate hs.budget (hpadding s.paddings)
    refine ⟨⟨hsound, fun p => ?_, hs.time⟩, rfl, hle⟩
    cases p with
    | kHighPriority => exact hs.light .kHighPriority
    | kNormalPriority => exact hs.light .kNormalPriority
    | kLowPriority => exact hs.light .kLowPriority
  · exact ⟨hs, rfl, le_refl _⟩

/-- `Process` that is held back. -/
theorem process_held (hstart : (s.startProcess env).1 = false) :
    s.process env = (s.startProcess env).2 ∧ s.callSent env .process = [] := by
  unfold process callSent
  generalize s.startProcess env = started at hstart
  obtain ⟨started, s₁⟩ := started
  dsimp only at hstart ⊢
  subst hstart
  exact ⟨rfl, rfl⟩

section Process

variable (hclock : Monotone env.now)
  (hpadding : ∀ n, IntervalBudget.Takeable (env.timeToSendPadding n))
  (hrate : IntervalBudget.InRange rate)

include hclock hpadding hrate

/-- `Process` once it has started. -/
theorem process_started (hstart : (s.startProcess env).1 = true)
    (hs : Steady env rate (s.startProcess env).2)
    (h : Budgeted bits (s.startProcess env).2 sent) :
    Steady env rate (s.process env) ∧
      (s.process env).timeLastUpdate = (s.startProcess env).2.timeLastUpdate ∧
      Budgeted bits (s.process env) (sent ++ s.callSent env .process) := by
  unfold process callSent
  generalize s.startProcess env = started at hstart hs h
  obtain ⟨started, s₁⟩ := started
  dsimp only at hstart hs h ⊢
  subst hstart
  obtain ⟨hloop, htime, hsent⟩ := processLoop_budgeted hclock hrate (s₁.queued + 1) hs h
  dsimp only
  generalize processLoop env (s₁.queued + 1) s₁ = looped at hloop htime hsent
  obtain ⟨refused, s₂⟩ := looped
  cases refused with
  | true => exact ⟨hloop, htime, hsent⟩
  | false =>
    obtain ⟨hpad, hpadTime, hle⟩ := sendPadding_eq hrate hpadding hloop
    exact ⟨hpad, hpadTime.trans htime, hsent.of_le hle⟩

theorem process_budgeted (hs : Steady env rate s) (h : Budgeted bits s sent) :
    Steady env rate (s.process env) ∧
      Budgeted (bits + brought rate s (s.process env)) (s.process env)
        (sent ++ s.callSent env .process) := by
  have hstarted := (startProcess_brings hclock hrate hs).1
  have hbudgeted := startProcess_budgeted hclock hrate hs h
  cases hstart : (s.startProcess env).1 with
  | true =>
    obtain ⟨hsteady, htime, hsent⟩ :=
      process_started hclock hpadding hrate hstart hstarted hbudgeted
    unfold brought at hsent ⊢
    rw [htime]
    exact ⟨hsteady, hsent⟩
  | false =>
    obtain ⟨heq, hnone⟩ := process_held hstart
    rw [heq, hnone, List.append_nil]
    exact ⟨hstarted, hbudgeted⟩

theorem process_carried (hs : Steady env rate s) (h : Carried bits s sent)
    (hpasses : TimePasses env s .process) :
    Carried (bits + brought rate s (s.process env)) (s.process env)
      (sent ++ s.callSent env .process) := by
  have hstarted := (startProcess_brings hclock hrate hs).1
  have hcarried := startProcess_carried hclock hrate hs h hpasses
  cases hstart : (s.startProcess env).1 with
  | true =>
    rw [if_pos hstart] at hcarried
    obtain ⟨-, htime, hsent⟩ := process_started hclock hpadding hrate hstart hstarted hcarried
    unfold brought at hsent ⊢
    rw [htime]
    exact hsent.carried
  | false =>
    rw [if_neg (by rw [hstart]; decide)] at hcarried
    obtain ⟨heq, hnone⟩ := process_held hstart
    rw [heq, hnone, List.append_nil]
    exact hcarried

end Process

/-! ## Other calls -/

theorem sendPacket_steady (hclock : Monotone env.now) {priority : Priority} {ssrc : BitVec 32}
    {sequenceNumber : BitVec 16} {captureTimeMs bytes : Int} (hlight : 0 ≤ bytes)
    (hlight' : 8 * bytes ≤ 100 * rate) (hs : Steady env rate s) :
    Steady env rate (s.sendPacket env priority ssrc sequenceNumber captureTimeMs bytes).2 ∧
      (s.sendPacket env priority ssrc sequenceNumber captureTimeMs bytes).2.mediaBudget =
        s.mediaBudget ∧
      (s.sendPacket env priority ssrc sequenceNumber captureTimeMs bytes).2.timeLastUpdate =
        s.timeLastUpdate := by
  have hmade := @makePacket_eq env s priority ssrc sequenceNumber captureTimeMs bytes
  unfold sendPacket
  split
  · exact ⟨hs, rfl, rfl⟩
  · generalize s.makePacket env priority ssrc sequenceNumber captureTimeMs bytes = made at hmade
    obtain ⟨packet, s₁⟩ := made
    obtain ⟨hbytes, hbudget, htime, hnow, -, hpackets⟩ := hmade
    dsimp only at hbytes hbudget htime hnow hpackets ⊢
    have hset : ∀ l, (s₁.setPackets l priority).mediaBudget = s.mediaBudget ∧
        (s₁.setPackets l priority).timeLastUpdate = s.timeLastUpdate ∧
        (s₁.setPackets l priority).nowCalls = s₁.nowCalls := by
      intro l
      cases priority <;> exact ⟨hbudget, htime, rfl⟩
    obtain ⟨hbudget', htime', hnow'⟩ := hset ((s₁.packets priority).pushBack packet)
    refine ⟨⟨by rw [hbudget']; exact hs.budget, fun p q hq => ?_, ?_⟩, hbudget', htime'⟩
    · by_cases hp : p = priority
      · subst hp
        rw [packets_setPackets_self, PacketList.pushBack_packetList, hpackets] at hq
        split at hq
        · exact hs.light p q hq
        · rcases List.mem_append.mp hq with hq | hq
          · exact hs.light p q hq
          · rw [List.mem_singleton.mp hq]
            exact ⟨by rw [hbytes]; exact hlight, by rw [hbytes]; exact hlight'⟩
      · rw [packets_setPackets_of_ne _ hp, hpackets] at hq
        exact hs.light p q hq
    · rw [htime', hnow']
      exact hs.time.trans (hclock hnow)

/-- Calls other than `Process` neither use nor fill the budget. -/
theorem call_steady {target : Int} (hclock : Monotone env.now) {c : Call} (hc : c ≠ .process)
    (hconstant : Constant env target c) (hs : Steady env (env.pace target) s) :
    Steady env (env.pace target) (s.call env c) ∧
      (s.call env c).mediaBudget.bytesRemaining = s.mediaBudget.bytesRemaining ∧
      (s.call env c).timeLastUpdate = s.timeLastUpdate ∧ s.callSent env c = [] := by
  cases c with
  | process => exact absurd rfl hc
  | setStatus enable => exact ⟨⟨hs.budget, hs.light, hs.time⟩, rfl, rfl, rfl⟩
  | pause => exact ⟨⟨hs.budget, hs.light, hs.time⟩, rfl, rfl, rfl⟩
  | resume => exact ⟨⟨hs.budget, hs.light, hs.time⟩, rfl, rfl, rfl⟩
  | updateBitrate target' padUpTo =>
    have htarget : target' = target := hconstant
    exact ⟨⟨⟨by rw [← htarget]; rfl, hs.budget.floor_le, hs.budget.le_ceiling⟩, hs.light, hs.time⟩,
      rfl, rfl, rfl⟩
  | sendPacket priority ssrc sequenceNumber captureTimeMs bytes =>
    obtain ⟨hsteady, hbudget, htime⟩ := @sendPacket_steady env (env.pace target) s hclock priority
      ssrc sequenceNumber captureTimeMs bytes hconstant.1 hconstant.2 hs
    exact ⟨hsteady, congrArg IntervalBudget.bytesRemaining hbudget, htime, rfl⟩

end Steps

/-! ## Runs -/

section Runs

variable {env : Env} {target bits : Int} {s : PacedSender} {sent : List Packet}

theorem brought_add (rate : Int) (s s' s'' : PacedSender) :
    brought rate s s' + brought rate s' s'' = brought rate s s'' := by
  unfold brought
  ring

theorem create_steady (hclock : Monotone env.now)
    (hrate : IntervalBudget.InRange (env.pace target)) :
    Steady env (env.pace target) (create env target) := by
  have hempty : IntervalBudget.Sound (env.pace target) { targetRateKbps := env.pace target } :=
    ⟨rfl, by have := hrate.nonneg; dsimp only; omega, by have := hrate.nonneg; dsimp only; omega⟩
  refine ⟨(IntervalBudget.increaseBudget_sound hrate hempty (by decide : 0 ≤ kMinPacketLimitMs)
    (by decide)).1, ?_, ?_⟩
  · intro p q hq
    cases p <;> exact absurd hq List.not_mem_nil
  · exact hclock (Nat.zero_le 1)

variable (hclock : Monotone env.now)
  (hpadding : ∀ n, IntervalBudget.Takeable (env.timeToSendPadding n))
  (hrate : IntervalBudget.InRange (env.pace target))

include hclock hpadding hrate

theorem call_budgeted {c : Call} (hconstant : Constant env target c)
    (hs : Steady env (env.pace target) s) :
    Steady env (env.pace target) (s.call env c) ∧
      (Budgeted bits s sent → Budgeted (bits + brought (env.pace target) s (s.call env c))
        (s.call env c) (sent ++ s.callSent env c)) ∧
      (Carried bits s sent → TimePasses env s c →
        Carried (bits + brought (env.pace target) s (s.call env c)) (s.call env c)
          (sent ++ s.callSent env c)) := by
  by_cases hc : c = .process
  · subst hc
    refine ⟨?_, fun h => ?_, fun h hpasses => ?_⟩
    · have hany : Budgeted (max (8 * s.mediaBudget.bytesRemaining) 0) s [] :=
        ⟨by rw [show bytesOf [] = 0 from rfl, zero_add]; exact le_max_left _ _, le_max_right _ _⟩
      exact (process_budgeted hclock hpadding hrate hs hany).1
    · exact (process_budgeted hclock hpadding hrate hs h).2
    · exact process_carried hclock hpadding hrate hs h hpasses
  · obtain ⟨hsteady, hbudget, htime, hnone⟩ := call_steady hclock hc hconstant hs
    have hbrought : brought (env.pace target) s (s.call env c) = 0 := by
      unfold brought
      rw [htime, sub_self, mul_zero]
    rw [hbrought, hnone, add_zero, List.append_nil]
    exact ⟨hsteady, fun h => ⟨by rw [hbudget]; exact h.total, h.dropLast⟩,
      fun h _ => ⟨by rw [hbudget]; exact h.total, h.dropLast⟩⟩

variable {calls : List Call} (hcalls : ∀ c ∈ calls, Constant env target c)
  (hs : Steady env (env.pace target) s)

include hcalls hs

theorem run_steady :
    Steady env (env.pace target) (Machine.run (call env) s calls) := by
  induction calls generalizing s with
  | nil => exact hs
  | cons c calls ih =>
    have hstep := (@call_budgeted env target 0 s [] hclock hpadding hrate c
      (hcalls c List.mem_cons_self) hs).1
    exact ih (fun c hc => hcalls c (List.mem_cons_of_mem _ hc)) hstep

theorem run_budgeted (h : Budgeted bits s sent) :
    Budgeted (bits + brought (env.pace target) s (Machine.run (call env) s calls))
      (Machine.run (call env) s calls) (sent ++ sentIn env calls s) := by
  induction calls generalizing s bits sent with
  | nil =>
    rw [sentIn, List.append_nil, brought, show Machine.run (call env) s [] = s from rfl, sub_self,
      mul_zero, add_zero]
    exact h
  | cons c calls ih =>
    obtain ⟨hsteady, hbudgeted, -⟩ := @call_budgeted env target bits s sent hclock hpadding hrate c
      (hcalls c List.mem_cons_self) hs
    have hrest := ih (fun c hc => hcalls c (List.mem_cons_of_mem _ hc)) hsteady (hbudgeted h)
    rw [add_assoc, brought_add, List.append_assoc] at hrest
    exact hrest

theorem run_carried (h : Carried bits s sent)
    (hpasses : Machine.Along (call env) (TimePasses env) s calls) :
    Carried (bits + brought (env.pace target) s (Machine.run (call env) s calls))
      (Machine.run (call env) s calls) (sent ++ sentIn env calls s) := by
  induction calls generalizing s bits sent with
  | nil =>
    rw [sentIn, List.append_nil, brought, show Machine.run (call env) s [] = s from rfl, sub_self,
      mul_zero, add_zero]
    exact h
  | cons c calls ih =>
    obtain ⟨hsteady, -, hcarried⟩ := @call_budgeted env target bits s sent hclock hpadding hrate c
      (hcalls c List.mem_cons_self) hs
    have hrest := ih (fun c hc => hcalls c (List.mem_cons_of_mem _ hc)) hsteady
      (hcarried h hpasses.1) hpasses.2
    rw [add_assoc, brought_add, List.append_assoc] at hrest
    exact hrest

end Runs

/-- Between two calls of `Process` at a constant bitrate, the packets that are sent while the budget
lasts, but for the last one, are worth no more than the time between the calls and what is left of
the budget at the first one. What is left counts for nothing if time passes between all calls of
`Process`. -/
theorem sent_le {env : Env} {target : Int} (hclock : Monotone env.now)
    (hpadding : ∀ n, IntervalBudget.Takeable (env.timeToSendPadding n))
    (hrate : IntervalBudget.InRange (env.pace target))
    {before after : List Call} (hbefore : ∀ c ∈ before, Constant env target c)
    (hafter : ∀ c ∈ after, Constant env target c) {s s' : PacedSender}
    (hs : s = Machine.run (call env) (create env target) before)
    (hs' : s' = Machine.run (call env) s after) :
    8 * bytesOf (sentIn env after s) ≤
        env.pace target * (s'.timeLastUpdate - s.timeLastUpdate) +
          8 * max s.mediaBudget.bytesRemaining 0 + 8 * lastBytes (sentIn env after s) ∧
      (Machine.Along (call env) (TimePasses env) s after →
        8 * bytesOf (sentIn env after s) ≤
          env.pace target * (s'.timeLastUpdate - s.timeLastUpdate) +
            8 * lastBytes (sentIn env after s)) := by
  have hsteady := run_steady hclock hpadding hrate hbefore (create_steady hclock hrate)
  rw [← hs] at hsteady
  have hsum := bytesOf_dropLast (sentIn env after s)
  have hnil : bytesOf [] = 0 := rfl
  constructor
  · have hstart : Budgeted (8 * max s.mediaBudget.bytesRemaining 0) s [] := by
      refine ⟨?_, ?_⟩
      · rw [hnil]
        omega
      · rw [List.dropLast_nil, hnil]
        omega
    have hend := (run_budgeted hclock hpadding hrate hafter hsteady hstart).dropLast
    rw [← hs', List.nil_append, brought] at hend
    omega
  · intro hpasses
    have hstart : Carried 0 s [] := by
      refine ⟨?_, ?_⟩
      · rw [hnil]
        omega
      · rw [List.dropLast_nil, hnil]
        omega
    have hend := (run_carried hclock hpadding hrate hafter hsteady hstart hpasses).dropLast
    rw [← hs', List.nil_append, brought] at hend
    omega

instance (env : Env) (s : PacedSender) (c : Call) : Decidable (TimePasses env s c) :=
  match c with
  | .process =>
    decidable_of_iff
      (s.enabled = true → s.paused = false → 0 < int32 (env.now s.nowCalls - s.timeLastUpdate))
      ⟨fun h _ => h, fun h => h rfl⟩
  | .sendPacket .. | .setStatus _ | .pause | .resume | .updateBitrate .. =>
    isTrue fun h => nomatch h

/-- Every reading of the clock comes a millisecond after the one before. -/
def tickingEnv : Env where
  now n := n
  timeToSendPacket _ := true
  timeToSendPadding _ := 0
  pace target := target

def callsBefore : List Call := [.setStatus true, .process]

def callsAfter : List Call :=
  [.sendPacket .kNormalPriority 1 1 0 300, .sendPacket .kNormalPriority 1 2 0 300, .process,
    .process, .process, .process]

def tickingStart : PacedSender :=
  Machine.run (call tickingEnv) (create tickingEnv 800) callsBefore

/-- The second packet is sent once the first one is paid for. -/
theorem sent_le_ticking :
    bytesOf (sentIn tickingEnv callsAfter tickingStart) = 600 ∧
      8 * bytesOf (sentIn tickingEnv callsAfter tickingStart) ≤
        800 * ((Machine.run (call tickingEnv) tickingStart callsAfter).timeLastUpdate -
          tickingStart.timeLastUpdate) + 8 * lastBytes (sentIn tickingEnv callsAfter tickingStart) :=
  ⟨by decide +kernel, (sent_le (fun _ _ h => Int.ofNat_le.mpr h)
    (fun _ => ⟨le_refl 0, by norm_num [tickingEnv]⟩) ⟨by decide, by decide⟩
    (by simp [callsBefore, Constant]) (by simp [callsAfter, Constant, tickingEnv]) rfl rfl).2
      (by decide +kernel)⟩

/-- The clock stands still. -/
def stillEnv : Env := { tickingEnv with now := fun _ => 0 }

/-- No time passes between two calls of `Process`, and two packets are sent on the budget that was
left. -/
theorem sent_not_le : ¬ ∀ (env : Env) (target : Int), Monotone env.now →
    (∀ n, IntervalBudget.Takeable (env.timeToSendPadding n)) →
    IntervalBudget.InRange (env.pace target) → ∀ before after : List Call,
    (∀ c ∈ before, Constant env target c) → (∀ c ∈ after, Constant env target c) →
    ∀ s s' : PacedSender, s = Machine.run (call env) (create env target) before →
      s' = Machine.run (call env) s after →
      8 * bytesOf (sentIn env after s) ≤ env.pace target * (s'.timeLastUpdate - s.timeLastUpdate) +
        8 * lastBytes (sentIn env after s) := by
  intro h
  have hbound := h stillEnv 800 monotone_const
    (fun _ => ⟨le_refl 0, by norm_num [stillEnv, tickingEnv]⟩) ⟨by decide, by decide⟩
    [.setStatus true, .process]
    [.sendPacket .kNormalPriority 1 1 0 200, .sendPacket .kNormalPriority 1 2 0 200, .process]
    (by simp [Constant]) (by simp [Constant, stillEnv, tickingEnv]) _ _ rfl rfl
  exact absurd hbound (by decide +kernel)

end PacedSender

end PerchWebrtc.Pacing
