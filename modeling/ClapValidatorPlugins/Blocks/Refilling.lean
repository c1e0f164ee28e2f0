/-
  Two runs of one pass over memories that differ only in channels the pass fills and does not
  read. Sample by sample, channel by channel and port by port there is less that may differ, and
  behind the pass the two memories are the same.
-/
import ClapValidatorPlugins.Blocks.Footprint
import ClapValidatorPlugins.Blocks.InPlace
import ClapValidatorPlugins.Lib.Alongside

namespace Cvp

variable {D S T : Type}

namespace Plane.Agree

variable {K K' : Ptr → Nat → Prop} {m m' : Plane T}

theorem mono (h : Plane.Agree K m m') (hK : ∀ p i, K p i → K' p i) : Plane.Agree K' m m' :=
  fun p i hne => h p i fun hk => hne (hK p i hk)

theorem eq (h : Plane.Agree K m m') (hK : ∀ p i, ¬ K p i) : m = m' :=
  funext fun p => funext fun i => h p i (hK p i)

/-- Both are written alike. -/
theorem write (h : Plane.Agree K m m') (p : Ptr) (i : Nat) (x : T) :
    Plane.Agree (fun q j => K q j ∧ ¬ (q = p ∧ j = i)) (m.write p i x) (m'.write p i x) := by
  intro q j hne
  unfold Plane.write
  by_cases hat : q = p ∧ j = i
  · rw [if_pos hat, if_pos hat]
  · rw [if_neg hat, if_neg hat]
    exact h q j fun hk => hne ⟨hk, hat⟩

end Plane.Agree

/-- What may differ is in the plane of the size. -/
def InPlane (size : SampleSize) (K : Ptr → Nat → Prop) (size' : SampleSize) (p : Ptr) (i : Nat) :
    Prop := size' = size ∧ K p i

namespace AudioMemory.Agree

variable {size : SampleSize} {K K' : Ptr → Nat → Prop} {memory memory' : AudioMemory D S}

theorem inPlane_mono (h : memory.Agree (InPlane size K) memory') (hK : ∀ p i, K p i → K' p i) :
    memory.Agree (InPlane size K') memory' :=
  ⟨h.f32.mono fun p i hp => ⟨hp.1, hK p i hp.2⟩, h.f64.mono fun p i hp => ⟨hp.1, hK p i hp.2⟩⟩

theorem inPlane_f32 (h : memory.Agree (InPlane .f32 K) memory') :
    Plane.Agree K memory.f32 memory'.f32 ∧ memory.f64 = memory'.f64 :=
  ⟨h.f32.mono fun _ _ hp => hp.2, h.f64.eq fun _ _ hp => absurd hp.1 (by decide)⟩

theorem inPlane_f64 (h : memory.Agree (InPlane .f64 K) memory') :
    memory.f32 = memory'.f32 ∧ Plane.Agree K memory.f64 memory'.f64 :=
  ⟨h.f32.eq fun _ _ hp => absurd hp.1 (by decide), h.f64.mono fun _ _ hp => hp.2⟩

/-- There is nothing left that may differ. -/
theorem eq_of_inPlane (h : memory.Agree (InPlane size K) memory') (hK : ∀ p i, ¬ K p i) :
    memory = memory' := by
  have h32 := h.f32.eq fun p i hp => hK p i hp.2
  have h64 := h.f64.eq fun p i hp => hK p i hp.2
  obtain ⟨f32, f64⟩ := memory
  cases h32
  cases h64
  rfl

end AudioMemory.Agree

/-! ## Two runs of a loop -/

/-- What is left of `K` when the channel `dst` has been written below `i`. -/
def Unwritten (K : Ptr → Prop) (frames : Nat) (dst : Ptr) (i : Nat) (p : Ptr) (j : Nat) : Prop :=
  K p ∧ j < frames ∧ ¬ (p = dst ∧ j < i)

section Loops

variable {K : Ptr → Prop} {frames : Nat} {m m' : Plane T}

theorem unwritten_zero (dst : Ptr) {p : Ptr} {j : Nat} (h : K p ∧ j < frames) :
    Unwritten K frames dst 0 p j :=
  ⟨h.1, h.2, fun hdone => Nat.not_lt_zero j hdone.2⟩

theorem unwritten_all {dst p : Ptr} {j : Nat} (h : Unwritten K frames dst frames p j) :
    (K p ∧ p ≠ dst) ∧ j < frames :=
  ⟨⟨h.1, fun heq => h.2.2 ⟨heq, h.2.1⟩⟩, h.2.1⟩

/-- One sample more. -/
theorem Plane.Agree.fill {dst : Ptr} {i : Nat}
    (h : Plane.Agree (Unwritten K frames dst i) m m') (x : T) :
    Plane.Agree (Unwritten K frames dst (i + 1)) (m.write dst i x) (m'.write dst i x) := by
  refine (h.write dst i x).mono fun p j hleft => ?_
  obtain ⟨⟨hK, hj, hdone⟩, hnow⟩ := hleft
  refine ⟨hK, hj, fun hnext => ?_⟩
  rcases Nat.lt_succ_iff_lt_or_eq.mp hnext.2 with hlt | heq
  · exact hdone ⟨hnext.1, hlt⟩
  · exact hnow ⟨hnext.1, heq⟩

theorem frameLoop_related {α : Type} (R : Nat → α → α → Prop) (body : Nat → α → α)
    (hbody : ∀ i a b, R i a b → R (i + 1) (body i a) (body i b)) (count : Nat) :
    ∀ (start : Nat) {a b : α}, R start a b →
      R (start + count) (frameLoop body start count a) (frameLoop body start count b) := by
  induction count with
  | zero => exact fun _ _ _ h => h
  | succ count ih =>
    intro start a b h
    rw [Nat.add_succ, ← Nat.succ_add]
    exact ih (start + 1) (hbody start a b h)

theorem frames_related {α : Type} (R : Nat → α → α → Prop) (body : Nat → α → α) (frames : Nat)
    (hbody : ∀ i a b, R i a b → R (i + 1) (body i a) (body i b)) {a b : α} (h : R 0 a b) :
    R frames (frameLoop body 0 frames a) (frameLoop body 0 frames b) := by
  have hloop := frameLoop_related R body hbody frames 0 h
  rwa [Nat.zero_add] at hloop

/-- Only the channels in `K` may differ, and only in the block. -/
def Plane.AgreeBut (K : Ptr → Prop) (frames : Nat) (m m' : Plane T) : Prop :=
  Plane.Agree (fun p i => K p ∧ i < frames) m m'

theorem Plane.AgreeBut.congr {K' : Ptr → Prop} (h : Plane.AgreeBut K frames m m')
    (hK : ∀ p, K p → K' p) : Plane.AgreeBut K' frames m m' :=
  h.mono fun p _ hp => ⟨hK p hp.1, hp.2⟩

theorem Plane.AgreeBut.eq (h : Plane.AgreeBut K frames m m') (hK : ∀ p, ¬ K p) : m = m' :=
  Plane.Agree.eq h fun p _ hp => hK p hp.1

theorem mapSamples_agree (f : T → T) {src : Ptr} (dst : Ptr) (hsrc : ¬ K src)
    (h : Plane.AgreeBut K frames m m') :
    Plane.AgreeBut (fun p => K p ∧ p ≠ dst) frames (mapSamples f src dst frames m)
      (mapSamples f src dst frames m') := by
  have hloop := frames_related (fun i => Plane.Agree (Unwritten K frames dst i))
    (fun i m => m.write dst i (f (m src i))) frames (fun i n n' hagree => ?_)
    (h.mono fun p i => unwritten_zero dst)
  · exact hloop.mono fun p i => unwritten_all
  · rw [hagree src i fun hleft => hsrc hleft.1]
    exact hagree.fill _

theorem clearSamples_agree (zero : T) (dst : Ptr) (h : Plane.AgreeBut K frames m m') :
    Plane.AgreeBut (fun p => K p ∧ p ≠ dst) frames (clearSamples zero dst frames m)
      (clearSamples zero dst frames m') := by
  have hloop := frames_related (fun i => Plane.Agree (Unwritten K frames dst i))
    (fun i m => m.write dst i zero) frames (fun i n n' hagree => hagree.fill zero)
    (h.mono fun p i => unwritten_zero dst)
  exact hloop.mono fun p i => unwritten_all

theorem copySamples_agree {src : Ptr} (dst : Ptr) (hsrc : ¬ K src)
    (h : Plane.AgreeBut K frames m m') :
    Plane.AgreeBut (fun p => K p ∧ p ≠ dst) frames
      (if dst = src then m else mapSamples id src dst frames m)
      (if dst = src then m' else mapSamples id src dst frames m') := by
  split
  · rename_i heq
    exact h.congr fun p hp => ⟨hp, fun hdst => hsrc (heq ▸ hdst ▸ hp)⟩
  · exact mapSamples_agree id dst hsrc h

theorem data32_buffer (ps : List Ptr) : (SampleSize.f32.buffer ps).data32 = some ps := rfl

/-- What is left of `K` behind the first `ch` channels of `qs`. -/
def Beyond (K : Ptr → Prop) (qs : List Ptr) (ch : Nat) (p : Ptr) : Prop := K p ∧ p ∉ qs.take ch

theorem beyond_succ {qs : List Ptr} {ch : Nat} {q p : Ptr} (hq : qs[ch]? = some q)
    (h : Beyond K qs ch p ∧ p ≠ q) : Beyond K qs (ch + 1) p := by
  obtain ⟨⟨hK, hold⟩, hne⟩ := h
  refine ⟨hK, fun hmem => ?_⟩
  rw [List.take_add_one, hq, Option.toList_some, List.mem_append, List.mem_singleton] at hmem
  exact hmem.elim hold hne

theorem channelAt_some {ps : List Ptr} {ch : Nat} {p : Ptr} (h : channelAt (some ps) ch = .ok p) :
    ps[ch]? = some p := by
  unfold channelAt at h
  dsimp only at h
  split at h
  · rename_i hp
    rw [hp]
    exact congrArg some (Except.ok.inj h)
  · cases h

variable {input output : AudioBuffer} {ps qs : List Ptr} (hin : input.data32 = some ps)
  (hout : output.data32 = some qs) (hsrcs : ∀ p ∈ ps, ¬ K p)
include hin hout hsrcs

theorem mapChannels_agree (f : Nat → T → T) (count : Nat) : ∀ (ch : Nat) {m m' : Plane T},
    Plane.AgreeBut (Beyond K qs ch) frames m m' →
      Alongside (Plane.AgreeBut (Beyond K qs (ch + count)) frames)
        (mapChannels f input output frames ch count m)
        (mapChannels f input output frames ch count m') := by
  induction count with
  | zero => exact fun ch m m' h => .ok h
  | succ count ih =>
    intro ch m m' h
    refine .andThen fun src hsrc => .andThen fun dst hdst => ?_
    rw [hin] at hsrc
    rw [hout] at hdst
    have hmem := List.mem_of_getElem? (channelAt_some hsrc)
    have hnext := mapSamples_agree (f ch) dst (fun hK => hsrcs src hmem hK.1) h
    rw [Nat.add_succ, ← Nat.succ_add]
    exact ih (ch + 1) (hnext.congr fun p => beyond_succ (channelAt_some hdst))

theorem copyChannels_agree (count : Nat) : ∀ (ch : Nat) {m m' : Plane T},
    Plane.AgreeBut (Beyond K qs ch) frames m m' →
      Alongside (Plane.AgreeBut (Beyond K qs (ch + count)) frames)
        (copyChannels input output frames ch count m)
        (copyChannels input output frames ch count m') := by
  induction count with
  | zero => exact fun ch m m' h => .ok h
  | succ count ih =>
    intro ch m m' h
    refine .andThen fun dst hdst => .andThen fun src hsrc => ?_
    rw [hin] at hsrc
    rw [hout] at hdst
    have hmem := List.mem_of_getElem? (channelAt_some hsrc)
    have hnext := copySamples_agree dst (fun hK => hsrcs src hmem hK.1) h
    rw [Nat.add_succ, ← Nat.succ_add]
    exact ih (ch + 1) (hnext.congr fun p => beyond_succ (channelAt_some hdst))

end Loops

section Flavors

variable {S : Type} [DoubleOps D] [FloatOps S] [FloatCast D S] {K : Ptr → Prop} {frames : Nat}

namespace MultiOutGenPlugin

theorem toneChannel_agree (phaseInc : D) (level : S) (dst : Ptr) (phase : D) {m m' : Plane S}
    (h : Plane.AgreeBut K frames m m') :
    (toneChannel phaseInc level dst frames phase m).1 =
        (toneChannel phaseInc level dst frames phase m').1 ∧
      Plane.AgreeBut (fun p => K p ∧ p ≠ dst) frames
        (toneChannel phaseInc level dst frames phase m).2
        (toneChannel phaseInc level dst frames phase m').2 := by
  suffices hloop : (toneChannel phaseInc level dst frames phase m).1 =
      (toneChannel phaseInc level dst frames phase m').1 ∧
      Plane.Agree (Unwritten K frames dst frames) (toneChannel phaseInc level dst frames phase m).2
        (toneChannel phaseInc level dst frames phase m').2 from
    ⟨hloop.1, hloop.2.mono fun p i => unwritten_all⟩
  refine frames_related (fun i (acc acc' : D × Plane S) => acc.1 = acc'.1 ∧
    Plane.Agree (Unwritten K frames dst i) acc.2 acc'.2) _ frames (fun i acc acc' hacc => ?_)
    ⟨rfl, h.mono fun p i => unwritten_zero dst⟩
  obtain ⟨x, n⟩ := acc
  obtain ⟨x', n'⟩ := acc'
  obtain ⟨rfl, hagree⟩ := hacc
  exact ⟨rfl, hagree.fill _⟩

theorem toneChannels_agree (start phaseInc : D) (level : S) (out : AudioBuffer) {qs : List Ptr}
    (hout : out.data32 = some qs) (count : Nat) : ∀ (ch : Nat) (phase : D) {m m' : Plane S},
      Plane.AgreeBut (Beyond K qs ch) frames m m' →
        Alongside (fun acc acc' => acc.1 = acc'.1 ∧
            Plane.AgreeBut (Beyond K qs (ch + count)) frames acc.2 acc'.2)
          (toneChannels start phaseInc level out frames ch count (phase, m))
          (toneChannels start phaseInc level out frames ch count (phase, m')) := by
  induction count with
  | zero => exact fun ch phase m m' h => .ok ⟨rfl, h⟩
  | succ count ih =>
    intro ch phase m m' h
    refine .andThen fun dst hdst => ?_
    rw [hout] at hdst
    obtain ⟨hphase, hnext⟩ := toneChannel_agree phaseInc level dst start h
    have hrest := ih (ch + 1) (toneChannel phaseInc level dst frames start m).1
      (hnext.congr fun p => beyond_succ (channelAt_some hdst))
    rw [Nat.add_succ, ← Nat.succ_add]
    rw [← Prod.mk.eta (p := toneChannel phaseInc level dst frames start m'), ← hphase]
    exact hrest

/-- Port by port: the channels of the ports that are done are no longer left. -/
theorem tonePorts_agree (base : Base D) (level : S) {outs : List (List Ptr)} :
    ∀ (port : Nat) (phases : Nat → D) {m m' : Plane S},
      Plane.AgreeBut (fun p => p ∈ outs.flatten) frames m m' →
        tonePorts base level frames port (outs.map SampleSize.f32.buffer) (phases, m) =
          tonePorts base level frames port (outs.map SampleSize.f32.buffer) (phases, m') := by
  induction outs with
  | nil =>
    intro port phases m m' h
    rw [h.eq fun p hp => List.not_mem_nil hp]
  | cons qs outs ih =>
    intro port phases m m' h
    refine Alongside.eq (.bind (toneChannels_agree _ _ level (SampleSize.f32.buffer qs)
      rfl qs.length 0 _ (h.congr fun p hp => ⟨hp, List.not_mem_nil⟩)) fun acc acc' _ hacc => ?_)
    obtain ⟨phase, n⟩ := acc
    obtain ⟨phase', n'⟩ := acc'
    obtain ⟨rfl, hagree⟩ := hacc
    dsimp only
    rw [ih (port + 1) _ (hagree.congr fun p hp => ?_)]
    · exact .refl (fun _ => rfl) _
    · rw [Nat.zero_add, Beyond, List.take_length] at hp
      exact (List.mem_append.mp hp.1).resolve_left hp.2

end MultiOutGenPlugin

theorem MultiOutFxPlugin.fanOut_agree (auxLevel : S) {ps : List Ptr} {outs : List (List Ptr)}
    (hlens : ∀ qs ∈ outs, ps.length = qs.length) : ∀ (port : Nat) {m m' : Plane S},
      Plane.AgreeBut (fun p => p ∈ outs.flatten ∧ p ∉ ps) frames m m' →
        fanOut auxLevel (SampleSize.f32.buffer ps) frames port (outs.map SampleSize.f32.buffer) m =
          fanOut auxLevel (SampleSize.f32.buffer ps) frames port
            (outs.map SampleSize.f32.buffer) m' := by
  induction outs with
  | nil =>
    intro port m m' h
    rw [h.eq fun p hp => List.not_mem_nil hp.1]
  | cons qs outs ih =>
    intro port m m' h
    obtain ⟨hlen, hrest⟩ := List.forall_mem_cons.mp hlens
    rw [List.map_cons, fanOut, fanOut, commonChannels_buffers ⟨rfl, hlen.symm⟩]
    refine Alongside.eq (.bind (mapChannels_agree (K := fun p => p ∈ (qs :: outs).flatten ∧ p ∉ ps)
      (data32_buffer ps) (data32_buffer qs) (fun p hp hK => hK.2 hp) _ ps.length 0
      (h.congr fun p hp => ⟨hp, List.not_mem_nil⟩)) fun n n' _ hagree => ?_)
    rw [ih hrest (port + 1) (hagree.congr fun p hp => ?_)]
    · exact .refl (fun _ => rfl) _
    · rw [Nat.zero_add, hlen, Beyond, List.take_length] at hp
      exact ⟨(List.mem_append.mp hp.1.1).resolve_left hp.2, hp.1.2⟩

namespace ParamsZooPlugin

/-- Both channels are filled in one go: from `i` on the two may differ. -/
def Remaining (K : Ptr → Prop) (frames i : Nat) (p : Ptr) (j : Nat) : Prop :=
  K p ∧ i ≤ j ∧ j < frames

theorem not_remaining {p : Ptr} {j : Nat} : ¬ Remaining K frames frames p j :=
  fun h => Nat.not_lt.mpr h.2.1 h.2.2

variable {dstL dstR : Ptr} (hK : ∀ p, K p → p = dstL ∨ p = dstR) {m m' : Plane S}

include hK in
omit [DoubleOps D] [FloatOps S] [FloatCast D S] in
theorem fillBoth {i : Nat} (h : Plane.Agree (Remaining K frames i) m m') (x y : S) :
    Plane.Agree (Remaining K frames (i + 1)) ((m.write dstL i x).write dstR i y)
      ((m'.write dstL i x).write dstR i y) := by
  refine ((h.write dstL i x).write dstR i y).mono fun p j hleft => ?_
  obtain ⟨⟨⟨hp, hi, hj⟩, hl⟩, hr⟩ := hleft
  have hne : j ≠ i := fun heq => (hK p hp).elim (fun h => hl ⟨h, heq⟩) fun h => hr ⟨h, heq⟩
  exact ⟨hp, by omega, hj⟩

variable {srcL srcR : Ptr} (hsrcL : ¬ K srcL) (hsrcR : ¬ K srcR)

include hK hsrcL hsrcR in
omit [FloatOps S] in
theorem shapeLoop_agree (s : State D) (h : Plane.AgreeBut K frames m m') :
    shapeLoop s srcL srcR dstL (some dstR) frames m =
      shapeLoop s srcL srcR dstL (some dstR) frames m' := by
  have hloop := frames_related (fun i => Plane.Agree (Remaining K frames i))
    (fun i m => (m.write dstL i (shapeFrame s (m srcL i) (m srcR i)).1).write dstR i
      (shapeFrame s (m srcL i) (m srcR i)).2) frames (fun i n n' hagree => ?_)
    (h.mono fun p i hp => ⟨hp.1, Nat.zero_le i, hp.2⟩)
  · exact hloop.eq fun p i => not_remaining
  · rw [hagree srcL i fun hp => hsrcL hp.1, hagree srcR i fun hp => hsrcR hp.1]
    exact fillBoth hK hagree _ _

include hK hsrcL hsrcR in
omit [DoubleOps D] [FloatOps S] [FloatCast D S] in
theorem bypassLoop_agree (h : Plane.AgreeBut K frames m m') :
    bypassLoop srcL srcR dstL (some dstR) frames m =
      bypassLoop srcL srcR dstL (some dstR) frames m' := by
  have hloop := frames_related (fun i => Plane.Agree (Remaining K frames i))
    (fun i m => (m.write dstL i (m srcL i)).write dstR i ((m.write dstL i (m srcL i)) srcR i))
    frames (fun i n n' hagree => ?_) (h.mono fun p i hp => ⟨hp.1, Nat.zero_le i, hp.2⟩)
  · exact hloop.eq fun p i => not_remaining
  · have hl := hagree srcL i fun hp => hsrcL hp.1
    have hr := hagree.write dstL i (n' srcL i) srcR i fun hp => hsrcR hp.1.1
    rw [hl, hr]
    exact fillBoth hK hagree _ _

include hsrcL hsrcR in
theorem measurePeak_agree (peak : D) (h : Plane.AgreeBut K frames m m') :
    measurePeak peak srcL srcR frames m = measurePeak peak srcL srcR frames m' := by
  refine frameLoop_carried id frames 0 _ fun i _ peak => ?_
  dsimp only [id]
  rw [h srcL i fun hp => hsrcL hp.1, h srcR i fun hp => hsrcR hp.1]

end ParamsZooPlugin

namespace EffectPlugin

variable {size : SampleSize} {memory memory' : AudioMemory D S}

theorem read_agree {L : Ptr → Nat → Prop} (h : memory.Agree (InPlane size L) memory') {p : Ptr}
    {i : Nat} (hp : ¬ L p i) :
    (channelOf size p).read memory i = (channelOf size p).read memory' i ∧
      (channelOf size p).isLive memory i = (channelOf size p).isLive memory' i := by
  cases size with
  | f32 =>
    have hsame := h.f32 p i fun hp' => hp hp'.2
    exact ⟨congrArg FloatCast.toDouble hsame, congrArg (FloatOps.ne · _) hsame⟩
  | f64 =>
    have hsame := h.f64 p i fun hp' => hp hp'.2
    exact ⟨hsame, congrArg (DoubleOps.ne · _) hsame⟩

omit [DoubleOps D] [FloatOps S] in
theorem write_fill {dst : Ptr} {i : Nat}
    (h : memory.Agree (InPlane size (Unwritten K frames dst i)) memory') (x : D) :
    ((channelOf size dst).write memory i x).Agree (InPlane size (Unwritten K frames dst (i + 1)))
      ((channelOf size dst).write memory' i x) := by
  cases size with
  | f32 =>
    obtain ⟨h32, h64⟩ := h.inPlane_f32
    refine ⟨(h32.fill (FloatCast.toFloat x)).mono fun p j hp => ⟨rfl, hp⟩, fun p j _ => ?_⟩
    exact congrFun (congrFun h64 p) j
  | f64 =>
    obtain ⟨h32, h64⟩ := h.inPlane_f64
    refine ⟨fun p j _ => ?_, (h64.fill x).mono fun p j hp => ⟨rfl, hp⟩⟩
    exact congrFun (congrFun h32 p) j

theorem applyGain_agree (gain : D) {src : Ptr} (dst : Ptr) (hsrc : ¬ K src) (silent : Bool)
    (h : memory.Agree (InPlane size fun p i => K p ∧ i < frames) memory') :
    (applyGain gain (channelOf size src) (channelOf size dst) frames silent memory).1 =
        (applyGain gain (channelOf size src) (channelOf size dst) frames silent memory').1 ∧
      (applyGain gain (channelOf size src) (channelOf size dst) frames silent memory).2.Agree
        (InPlane size fun p i => (K p ∧ p ≠ dst) ∧ i < frames)
        (applyGain gain (channelOf size src) (channelOf size dst) frames silent memory').2 := by
  suffices hloop :
      (applyGain gain (channelOf size src) (channelOf size dst) frames silent memory).1 =
        (applyGain gain (channelOf size src) (channelOf size dst) frames silent memory').1 ∧
      (applyGain gain (channelOf size src) (channelOf size dst) frames silent memory).2.Agree
        (InPlane size (Unwritten K frames dst frames))
        (applyGain gain (channelOf size src) (channelOf size dst) frames silent memory').2 from
    ⟨hloop.1, hloop.2.inPlane_mono fun p i => unwritten_all⟩
  refine frames_related (fun i (acc acc' : Bool × AudioMemory D S) => acc.1 = acc'.1 ∧
    acc.2.Agree (InPlane size (Unwritten K frames dst i)) acc'.2) _ frames
    (fun i acc acc' hacc => ?_) ⟨rfl, h.inPlane_mono fun p i => unwritten_zero dst⟩
  obtain ⟨quiet, n⟩ := acc
  obtain ⟨quiet', n'⟩ := acc'
  obtain ⟨rfl, hagree⟩ := hacc
  obtain ⟨hread, hlive⟩ := read_agree hagree (p := src) (i := i) fun hleft => hsrc hleft.1
  dsimp only
  rw [hread, hlive]
  exact ⟨rfl, write_fill hagree _⟩

theorem channel_some {ps : List Ptr} {ch : Nat} {c : Channel}
    (h : channel (size.buffer ps) ch = .ok c) : ∃ p, ps[ch]? = some p ∧ c = channelOf size p := by
  have hmap : ∀ make : Ptr → Channel, make <$> channelAt (some ps) ch = .ok c →
      ∃ p, ps[ch]? = some p ∧ c = make p := by
    intro make hmake
    cases hp : channelAt (some ps) ch with
    | error fault =>
      rw [hp] at hmake
      cases hmake
    | ok p =>
      rw [hp] at hmake
      exact ⟨p, channelAt_some hp, (Except.ok.inj hmake).symm⟩
  cases size with
  | f32 => exact hmap .f32 h
  | f64 => exact hmap .f64 h

theorem gainChannels_agree (gain : D) {ps : List Ptr} (qs : List Ptr)
    (hsrcs : ∀ p ∈ ps, ¬ K p) (count : Nat) :
    ∀ (ch : Nat) (silent : Bool) {memory memory' : AudioMemory D S},
      memory.Agree (InPlane size fun p i => Beyond K qs ch p ∧ i < frames) memory' →
        Alongside (fun acc acc' => acc.1 = acc'.1 ∧
            acc.2.Agree (InPlane size fun p i => Beyond K qs (ch + count) p ∧ i < frames) acc'.2)
          (gainChannels gain (size.buffer ps) (size.buffer qs) frames ch count (silent, memory))
          (gainChannels gain (size.buffer ps) (size.buffer qs) frames ch count
            (silent, memory')) := by
  induction count with
  | zero => exact fun ch silent memory memory' h => .ok ⟨rfl, h⟩
  | succ count ih =>
    intro ch silent memory memory' h
    refine .andThen fun src hsrc => .andThen fun dst hdst => ?_
    obtain ⟨p, hp, rfl⟩ := channel_some hsrc
    obtain ⟨q, hq, rfl⟩ := channel_some hdst
    have hp' := hsrcs p (List.mem_of_getElem? hp)
    obtain ⟨hsilent, hnext⟩ :=
      applyGain_agree gain q (fun hK => hp' hK.1) silent h
    have hrest := ih (ch + 1)
      (applyGain gain (channelOf size p) (channelOf size q) frames silent memory).1
      (hnext.inPlane_mono fun p i hleft => ⟨beyond_succ hq hleft.1, hleft.2⟩)
    rw [Nat.add_succ, ← Nat.succ_add]
    rw [← Prod.mk.eta (p := applyGain gain (channelOf size p) (channelOf size q) frames silent
      memory'), ← hsilent]
    exact hrest

end EffectPlugin

/-! ## The synths -/

/-- Both channels are cleared first. -/
theorem cleared_eq (zero : T) {left right : Ptr} {m m' : Plane T}
    (h : Plane.AgreeBut (fun p => p ∈ [left, right]) frames m m') :
    clearSamples zero right frames (clearSamples zero left frames m) =
      clearSamples zero right frames (clearSamples zero left frames m') := by
  have hleft := clearSamples_agree zero left h
  have hboth := clearSamples_agree zero right hleft
  refine hboth.eq fun p hp => ?_
  obtain ⟨⟨hp, hl⟩, hr⟩ := hp
  simp [hl, hr] at hp

theorem SynthPlugin.processPlane_agree [SampleOps D T] (s : State D S) (block : ProcessBlock D)
    (out : AudioBuffer) (hcount : out.channelCount = 2) {left right : Ptr} {m m' : Plane T}
    (h : Plane.AgreeBut (fun p => p ∈ [left, right]) block.framesCount.toNat m m') :
    processPlane s block out (some [left, right]) m =
      processPlane s block out (some [left, right]) m' := by
  have hcleared := cleared_eq (SampleOps.zero D) h
  have htyped : ∀ headers, processTyped s block.framesCount headers left (some right) m =
      processTyped s block.framesCount headers left (some right) m' := by
    intro headers
    unfold processTyped
    dsimp only
    rw [hcleared]
  have hsecond : 1 < out.channelCount := by omega
  refine Alongside.eq (.andThen fun l hl => ?_)
  rw [if_pos hsecond, if_pos hsecond]
  refine .andThen fun r hr => .andThen fun headers _ => ?_
  cases hl
  cases hr
  rw [htyped]
  exact .refl (fun _ => rfl) _

/-- The two channels of the output, of either size. -/
theorem SynthPlugin.process_agree (base : Base D) (s : State D S) {size : SampleSize}
    {block : ProcessBlock D} {left right : Ptr} {rest : List AudioBuffer}
    (hout : block.audioOutputs = size.buffer [left, right] :: rest)
    {memory memory' : AudioMemory D S}
    (h : memory.Agree (InPlane size fun p i =>
      p ∈ [left, right] ∧ i < block.framesCount.toNat) memory') :
    process base s block memory = process base s block memory' := by
  unfold process
  rw [hout]
  cases size with
  | f32 =>
    obtain ⟨hplane, h64⟩ := h.inPlane_f32
    have h32 := processPlane_agree s block (SampleSize.f32.buffer [left, right]) rfl hplane
    show (processPlane s block _ (some [left, right]) memory.f32 >>= _) =
      (processPlane s block _ (some [left, right]) memory'.f32 >>= _)
    rw [h32, h64]
  | f64 =>
    obtain ⟨h32, hplane⟩ := h.inPlane_f64
    have h64 := processPlane_agree s block (SampleSize.f64.buffer [left, right]) rfl hplane
    show (processPlane s block _ (some [left, right]) memory.f64 >>= _) =
      (processPlane s block _ (some [left, right]) memory'.f64 >>= _)
    rw [h32, h64]

theorem SidechainSynthPlugin.process_agree (base : Base D) (s : State D S)
    {block : ProcessBlock D} {left right : Ptr} {rest : List AudioBuffer}
    (hout : block.audioOutputs = SampleSize.f32.buffer [left, right] :: rest)
    {memory memory' : AudioMemory D S}
    (h : memory.Agree (InPlane .f32 fun p i =>
      p ∈ [left, right] ∧ i < block.framesCount.toNat) memory') :
    process base s block memory = process base s block memory' := by
  obtain ⟨hplane, h64⟩ := h.inPlane_f32
  have hcleared := cleared_eq (FloatOps.lit 0) hplane
  have hone : ¬ (SampleSize.f32.buffer [left, right]).channelCount < 1 :=
    (by decide : ¬ 2 < 1)
  have htwo : 1 < (SampleSize.f32.buffer [left, right]).channelCount := (by decide : 1 < 2)
  unfold process
  rw [hout]
  dsimp only
  rw [if_neg hone, if_neg hone]
  refine Alongside.eq (.andThen fun l hl => ?_)
  rw [if_pos htwo, if_pos htwo]
  refine .andThen fun r hr => .andThen fun headers _ => ?_
  cases hl
  cases hr
  dsimp only
  rw [hcleared, h64]
  exact .refl (fun _ => rfl) _

end Flavors

end Cvp
