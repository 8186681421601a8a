import Lspee.Theory.Downstream

/-!
# The Editor Catches Up

`Theory.Downstream` says of what the editor has been shown that it is the first part of
what the server has written. That leaves open that it is never shown the rest. Here it is
shown that nothing between the server and the editor waits for anything but its turn:
from every state in which the proxy, the reader of the server's output and the two tasks
of the connection run, and no error is on its way, there are steps of these alone after
which the editor has been shown all that the server has written (`editor_catches_up`).

The steps are found from the end of the way to its start. The proxy hears what is in the
socket; when that is empty, the writer task writes what is queued; then the forwarding
task queues what it holds, and takes another message, or skips what it has lost; and only
when there is none does the reader broadcast the next. So the broadcast never holds more
than one message that the forwarding task has not taken, and no message is lost on the
way. Each step brings what is on its way one place further, and the places are weighed so
that it weighs less there.

That there is room in the broadcast at all is an invariant of the fleet: every server's
broadcast has the capacity it was created with (`Fleet.Roomy`).

## Main definitions

* `Flowing`: Everybody runs, and what is on its way can be read.
* `weight`: How far it is from the editor.
* `Own`, `Onward`: The steps, and what each of them does.
* `Fleet.Roomy`: The broadcasts have their capacity.

## Theorems

* `onward_hear`, `onward_write`, `onward_push`, `onward_lagged`, `onward_take`,
  `onward_read`: One step for each place.
* `progress`: Nothing is on its way, or a step brings it further.
* `ends_at_rest`: Steps until nothing is.
* `editor_catches_up`: The editor is shown everything.
-/

namespace Lspee

open Transition Utf8 Broadcast Passage

/-- A step of the server's users is a step of the fleet. -/
theorem Fleet.exists_act (f : Fleet) (server : CallId) (t : Server) (a : SharingAction)
    (h : Sharing) (ht : f.servers.get? server = some t) (hmay : t.mayMove a = true)
    (hstep : t.sharing.step a = some h) :
    ∃ f' t', f.step (.server server a) = some f' ∧ f'.servers.get? server = some t' ∧
      t'.sharing = h := by
  refine ⟨f.setServer server { t.after h with
    frames := Server.noteFrame t.frames a
    writerFailed := t.writerFailed || Server.isWriterFailed a }, _, ?_,
    Table.get?_set_self _ _ _, rfl⟩
  simp only [step, onServer, ht, Server.act, hmay, if_true, hstep, Option.map_some]

namespace Tunnel

variable {fromSlice : List UInt8 → Option Json}
variable {toString : Json → List Char} {fromStr : List Char → Option Json}

/-- What the forwarding task has yet to take of the server's messages. -/
def toCome (t : Transport) (u : LeaseStream) : List Json :=
  (t.outbound.unread u.rx).map (fun m => m.content.payload) ++ t.stdout.map fun m => m.content

/-- A message of the server that the proxy can read. -/
def Plain (toString : Json → List Char) (fromStr : List Char → Option Json)
    (frame : StreamFrame) : Prop :=
  frame.v = protocolVersion ∧ frame.frameType = .lspOut ∧ ReadBack toString fromStr frame

/-- The proxy, the reader and the tasks of the connection run, and what is on its way
    can be read under the numbers up to a bound. -/
structure Flowing (toString : Json → List Char) (fromStr : List Char → Option Json) (bound : Nat)
    (s : Tunnel) (h : Sharing) (u : LeaseStream) (pending : List (Tagged StreamFrame)) : Prop where
  server : ∃ t, s.fleet.servers.get? s.server = some t ∧ t.sharing = h
  stream : h.streams.get? s.n = some u
  proxy : s.proxy.pc = .running
  forwards : u.Forwards
  reading : h.transport.reading = true
  capacity : 0 < h.transport.outbound.capacity
  position : u.rx.next ≤ h.transport.outbound.sent.length
  delivered : ∀ frame ∈ u.delivered, ReadBack toString fromStr frame.content
  arriving : s.toProxy = writeFrames toString (pending.map fun frame => frame.content)
  plain : ∀ frame ∈ pending ++ u.queue ++ u.inHand.toList, Plain toString fromStr frame.content
  coming : ∀ payload ∈ toCome h.transport u, ∀ seq ≤ bound,
    ReadBack toString fromStr ⟨protocolVersion, .lspOut, u.leaseId, seq, payload⟩
  numbers : u.seq + (toCome h.transport u).length ≤ bound

/-- How far what is on its way is from the editor. -/
def weight (h : Sharing) (u : LeaseStream) (pending : List (Tagged StreamFrame)) : Nat :=
  pending.length + 2 * u.queue.length + 3 * u.inHand.toList.length +
    4 * (h.transport.outbound.unread u.rx).length + 5 * h.transport.stdout.length

/-- The steps of the proxy, the reader and the tasks of the connection. -/
def Own (server : CallId) (n : Nat) : TunnelAction → Prop
  | .fleet (.server k a) => k = server ∧ (a = .transport .read ∨ a = .take n ∨ a = .push n)
  | .write => True
  | .hear writes => writes = true
  | _ => False

/-- A step that brings what is on its way further, and loses nothing. -/
structure Onward (toString : Json → List Char) (fromStr : List Char → Option Json) (bound : Nat)
    (fromSlice : List UInt8 → Option Json) (s s' : Tunnel) (a : TunnelAction) (w : Nat) :
    Prop where
  step : s.step fromSlice toString fromStr a = some s'
  room : s.room a = true
  own : Own s.server s.n a
  same : s'.server = s.server ∧ s'.n = s.n ∧ s'.spoken = s.spoken ∧
    s'.proxy.handed = s.proxy.handed
  flowing : ∃ h u pending, Flowing toString fromStr bound s' h u pending ∧ weight h u pending < w

variable {bound : Nat}

theorem stream_of_flowing (s : Tunnel) (h : Sharing) (u : LeaseStream)
    (pending : List (Tagged StreamFrame))
    (hflow : Flowing toString fromStr bound s h u pending) : s.stream = some u := by
  rcases hflow.server with ⟨t, ht, hsharing⟩
  unfold stream
  rw [ht, Option.bind_some, hsharing, hflow.stream]

/-- The proxy hears the first frame in the socket. -/
theorem onward_hear (hcompact : Json.PrintsCompact toString) (s : Tunnel) (h : Sharing)
    (u : LeaseStream) (frame : Tagged StreamFrame) (rest : List (Tagged StreamFrame))
    (hflow : Flowing toString fromStr bound s h u (frame :: rest)) :
    ∃ s', Onward toString fromStr bound fromSlice s s' (.hear true)
      (weight h u (frame :: rest)) := by
  have hplain := hflow.plain frame (by simp)
  have hv : frame.content.v < 2 ^ 32 := by
    rw [hplain.1]
    decide
  have hread : s.nextRead = (.line (toString frame.content.toValue),
      writeFrames toString (rest.map fun frame => frame.content)) := by
    rw [nextRead, hflow.arriving, List.map_cons, nextLine_writeFrames hcompact]
  -- There is a whole line, for a printed frame has no newline.
  have hreadable : Conversation.readable s.toProxy s.daemonClosed = true := by
    have hnot : newline ∉ encode (toString frame.content.toValue) := fun hmem =>
      (Json.oneLine_toString hcompact frame.content.toValue).1 (newline_mem_encode _ hmem)
    rw [hflow.arriving, List.map_cons, writeFrames, List.flatMap_cons, Conversation.readable,
      writeLine, List.append_assoc, List.singleton_append, splitLine_append _ _ hnot]
    rfl
  have hframe := frameOf_toString frame.content hv hplain.2.2
  let p : Proxy := { s.proxy with
    frame := (frameReader fromSlice).start
    stdout := s.proxy.stdout ++ [frame.content.payload] }
  refine ⟨{ s with
      proxy := p
      toProxy := writeFrames toString (rest.map fun frame => frame.content)
      toDaemon := s.toDaemon ++ writeFrames toString (p.sent.drop s.proxy.sent.length) },
    ⟨?_, rfl, rfl, ⟨rfl, rfl, rfl, rfl⟩, h, u, rest, ⟨hflow.server, hflow.stream, hflow.proxy,
      hflow.forwards, hflow.reading, hflow.capacity, hflow.position, hflow.delivered, rfl,
      fun f hf => hflow.plain f ?_, hflow.coming, hflow.numbers⟩, ?_⟩⟩
  · simp only [step, hear, hreadable, if_true, hread, moveProxy, Proxy.step, hflow.proxy,
      Proxy.handleStream, hframe, hplain.2.1, Proxy.writeLspMessage, Option.map_some, p]
  · simp only [List.cons_append, List.mem_cons]
    exact .inr hf
  · simp only [weight, List.length_cons]
    omega

/-- A step of the stream's tasks. -/
theorem onward_act (s : Tunnel) (h h' : Sharing) (u u' : LeaseStream)
    (pending : List (Tagged StreamFrame))
    (hflow : Flowing toString fromStr bound s h u pending) (a : SharingAction)
    (hmay : ∀ t : Server, t.mayMove a = true) (hmine : s.mayMove (.server s.server a) = true)
    (hquiet : s.emitted (.server s.server a) = [])
    (hroom : s.room (.fleet (.server s.server a)) = true) (hstep : h.step a = some h')
    (hstream : h'.streams.get? s.n = some u') (hforwards : u'.Forwards)
    (hown : Own s.server s.n (.fleet (.server s.server a)))
    (hreading : h'.transport.reading = true) (hcapacity : 0 < h'.transport.outbound.capacity)
    (hposition : u'.rx.next ≤ h'.transport.outbound.sent.length)
    (hdelivered : u'.delivered = u.delivered)
    (hplain : ∀ frame ∈ pending ++ u'.queue ++ u'.inHand.toList,
      Plain toString fromStr frame.content)
    (hlease : u'.leaseId = u.leaseId)
    (hcoming : ∀ payload ∈ toCome h'.transport u', payload ∈ toCome h.transport u)
    (hnumbers : u'.seq + (toCome h'.transport u').length ≤ bound)
    (hweight : weight h' u' pending < weight h u pending) :
    ∃ s', Onward toString fromStr bound fromSlice s s' (.fleet (.server s.server a))
      (weight h u pending) := by
  rcases hflow.server with ⟨t, ht, hsharing⟩
  subst hsharing
  -- The fleet takes the same step, on this server.
  rcases Fleet.exists_act s.fleet s.server t a h' ht (hmay t) hstep with ⟨f, t', hf, ht', rfl⟩
  refine ⟨{ s with fleet := f, spoken := s.spoken ++ s.emitted (.server s.server a) },
    ⟨?_, hroom, hown, ⟨rfl, rfl, ?_, rfl⟩, t'.sharing, u', pending, ⟨⟨t', ht', rfl⟩, hstream,
      hflow.proxy, hforwards, hreading, hcapacity, hposition, ?_, hflow.arriving, hplain, ?_,
      hnumbers⟩, hweight⟩⟩
  · simp only [step, hmine, if_true, hf, Option.map_some]
  · rw [hquiet, List.append_nil]
  · rw [hdelivered]
    exact hflow.delivered
  · intro payload hpayload seq hseq
    rw [hlease]
    exact hflow.coming payload (hcoming payload hpayload) seq hseq

/-- The writer task writes the first frame that is queued. -/
theorem onward_write (s : Tunnel) (h : Sharing) (u : LeaseStream)
    (pending rest : List (Tagged StreamFrame)) (frame : Tagged StreamFrame)
    (hflow : Flowing toString fromStr bound s h u pending) (hqueue : u.queue = frame :: rest) :
    ∃ s', Onward toString fromStr bound fromSlice s s' .write (weight h u pending) := by
  have hstream := stream_of_flowing s h u pending hflow
  rcases hflow.server with ⟨t, ht, hsharing⟩
  subst hsharing
  let wrote : LeaseStream := { u with queue := rest, delivered := u.delivered ++ [frame] }
  have hwrite : u.write = some wrote := by
    simp only [wrote, LeaseStream.write, hflow.forwards.writerTask, hqueue]
  -- The frame leaves the queue and becomes bytes in one step.
  have hact : t.sharing.step (.write s.n) = some { t.sharing with
      streams := t.sharing.streams.set s.n wrote } := by
    simp only [Sharing.step, Sharing.move, hflow.stream, hwrite, Option.map_some]
  rcases Fleet.exists_act s.fleet s.server t _ _ ht rfl hact with ⟨f, t', hf, ht', hsharing'⟩
  refine ⟨{ s with
      fleet := f
      toProxy := s.toProxy ++ writeFrames toString [frame.content] },
    ⟨?_, rfl, trivial, ⟨rfl, rfl, rfl, rfl⟩, t'.sharing, wrote, pending ++ [frame], ⟨⟨t', ht', rfl⟩,
      ?_, hflow.proxy, ⟨hflow.forwards.runtimeTask, hflow.forwards.writerTask⟩, ?_, ?_, ?_,
      fun f hf => ?_, ?_, fun f hf => hflow.plain f ?_, ?_, ?_⟩, ?_⟩⟩
  · simp only [step, write, hstream, Option.bind_some, hqueue, List.head?_cons, onStream, hf,
      Option.map_some]
  · rw [hsharing']
    exact Table.get?_set_self _ _ _
  · rw [hsharing']
    exact hflow.reading
  · rw [hsharing']
    exact hflow.capacity
  · rw [hsharing']
    exact hflow.position
  -- The frame just written is a plain one, like all that were queued.
  · rcases List.mem_append.mp hf with hf | hf
    · exact hflow.delivered f hf
    · rw [List.mem_singleton.mp hf]
      exact (hflow.plain frame (by simp [hqueue])).2.2
  · rw [List.map_append, writeFrames_append, hflow.arriving]
    rfl
  · rw [hqueue]
    simpa [List.append_assoc, wrote] using hf
  · rw [hsharing']
    exact hflow.coming
  · rw [hsharing']
    exact hflow.numbers
  · rw [hsharing']
    simp only [weight, wrote, hqueue, List.length_append, List.length_cons, List.length_nil]
    omega

/-- The forwarding task queues the frame it holds. -/
theorem onward_push (s : Tunnel) (h : Sharing) (u : LeaseStream)
    (pending : List (Tagged StreamFrame)) (frame : Tagged StreamFrame)
    (hflow : Flowing toString fromStr bound s h u pending) (hqueue : u.queue = [])
    (hhand : u.inHand = some frame) :
    ∃ s', Onward toString fromStr bound fromSlice s s' (.fleet (.server s.server (.push s.n)))
      (weight h u pending) := by
  let pushed : LeaseStream := { u with inHand := none, queue := u.queue ++ [frame] }
  have hpush : u.push = some pushed := by
    simp [pushed, LeaseStream.push, hflow.forwards.runtimeTask, hflow.forwards.writerTask, hhand,
      hqueue, channelCapacity]
  refine onward_act s h { h with streams := h.streams.set s.n pushed } u pushed pending hflow
    (.push s.n) (fun _ => rfl) (by simp [mayMove]) rfl rfl
    (by simp only [Sharing.step, Sharing.move, hflow.stream, hpush, Option.map_some])
    (Table.get?_set_self _ _ _) ⟨hflow.forwards.runtimeTask, hflow.forwards.writerTask⟩
    ⟨rfl, .inr (.inr rfl)⟩ hflow.reading hflow.capacity hflow.position rfl
    (fun f hf => hflow.plain f ?_) rfl (fun _ hp => hp) hflow.numbers ?_
  · rw [hhand]
    simpa [List.append_assoc, pushed] using hf
  · simp only [weight, pushed, hhand, Option.toList_some, Option.toList_none, List.length_append,
      List.length_cons, List.length_nil]
    omega

/-- The forwarding task skips what it has lost. -/
theorem onward_lagged (s : Tunnel) (h : Sharing) (u : LeaseStream)
    (pending : List (Tagged StreamFrame))
    (hflow : Flowing toString fromStr bound s h u pending) (hhand : u.inHand = none)
    (hlags : h.transport.outbound.Lags u.rx) :
    ∃ s', Onward toString fromStr bound fromSlice s s' (.fleet (.server s.server (.take s.n)))
      (weight h u pending) := by
  let oldest : Receiver := ⟨h.transport.outbound.sent.length - h.transport.outbound.capacity⟩
  have htake : u.take h.transport.outbound h.transport.senders = some { u with rx := oldest } := by
    simp only [LeaseStream.take, hflow.forwards.runtimeTask, hhand,
      Channel.recv_lagged _ _ _ hlags]
    rfl
  -- The task skips to the oldest message that is kept.
  have hsuffix : (h.transport.outbound.unread oldest).Sublist
      (h.transport.outbound.unread u.rx) := by
    refine List.drop_sublist_drop_left _ ?_
    unfold Channel.Lags at hlags
    simp only [oldest]
    omega
  -- And what it skips makes the measure smaller.
  have hless : (h.transport.outbound.unread oldest).length <
      (h.transport.outbound.unread u.rx).length := by
    have hcapacity := hflow.capacity
    unfold Channel.Lags at hlags
    rw [Channel.unread_length, Channel.unread_length]
    simp only [oldest]
    omega
  refine onward_act s h { h with streams := h.streams.set s.n { u with rx := oldest } } u
    { u with rx := oldest } pending hflow (.take s.n) (fun _ => rfl) (by simp [mayMove]) rfl rfl
    (by simp only [Sharing.step, Sharing.move, hflow.stream, htake, Option.map_some])
    (Table.get?_set_self _ _ _) ⟨hflow.forwards.runtimeTask, hflow.forwards.writerTask⟩
    ⟨rfl, .inr (.inl rfl)⟩ hflow.reading hflow.capacity (Nat.sub_le _ _) rfl hflow.plain rfl
    (fun payload hpayload => ?_) ?_ ?_
  · rw [toCome, List.mem_append] at hpayload ⊢
    exact hpayload.imp_left fun hm => (hsuffix.map _).subset hm
  · have hnumbers := hflow.numbers
    simp only [toCome, List.length_append, List.length_map] at hnumbers ⊢
    omega
  · simp only [weight]
    omega

/-- The forwarding task takes a message. -/
theorem onward_take (s : Tunnel) (h : Sharing) (u : LeaseStream)
    (pending : List (Tagged StreamFrame))
    (hflow : Flowing toString fromStr bound s h u pending) (hhand : u.inHand = none)
    (hlags : ¬h.transport.outbound.Lags u.rx) (m : Tagged LspMessage)
    (rest : List (Tagged LspMessage)) (hunread : h.transport.outbound.unread u.rx = m :: rest) :
    ∃ s', Onward toString fromStr bound fromSlice s s' (.fleet (.server s.server (.take s.n)))
      (weight h u pending) := by
  let taken : LeaseStream := { u with
    rx := ⟨u.rx.next + 1⟩
    seq := min (u.seq + 1) (2 ^ 64 - 1)
    inHand := some (u.lspOut m) }
  have htake : u.take h.transport.outbound h.transport.senders = some taken := by
    simp only [taken, LeaseStream.take, hflow.forwards.runtimeTask, hhand,
      Channel.recv_value _ _ _ _ _ hlags hunread]
  have hnext : h.transport.outbound.unread taken.rx = rest :=
    Channel.unread_next _ _ m rest hunread
  -- The message taken was the next to come.
  have hcome : toCome h.transport u = m.content.payload :: toCome h.transport taken := by
    rw [toCome, toCome, hunread, hnext]
    rfl
  have hnumbers := hflow.numbers
  rw [hcome, List.length_cons] at hnumbers
  refine onward_act s h { h with streams := h.streams.set s.n taken } u taken pending hflow
    (.take s.n) (fun _ => rfl) (by simp [mayMove]) rfl rfl
    (by simp only [Sharing.step, Sharing.move, hflow.stream, htake, Option.map_some])
    (Table.get?_set_self _ _ _) ⟨hflow.forwards.runtimeTask, hflow.forwards.writerTask⟩
    ⟨rfl, .inr (.inl rfl)⟩ hflow.reading hflow.capacity
    (Channel.next_lt_of_unread _ _ m rest hunread) rfl (fun f hf => ?_) rfl
    (fun payload hpayload => ?_) ?_ ?_
  · rw [List.mem_append] at hf
    rcases hf with hf | hf
    · exact hflow.plain f (List.mem_append_left _ hf)
    · -- the new frame has the number that the task was at
      simp only [taken, Option.toList_some, List.mem_singleton] at hf
      rw [hf]
      refine ⟨rfl, rfl, hflow.coming m.content.payload ?_ u.seq ?_⟩
      · rw [hcome]
        exact List.mem_cons_self
      · omega
  · rw [hcome]
    exact List.mem_cons_of_mem _ hpayload
  · have hseq : taken.seq ≤ u.seq + 1 := Nat.min_le_left _ _
    change taken.seq + (toCome h.transport taken).length ≤ bound
    omega
  · change weight h taken pending < weight h u pending
    simp only [weight, hhand, hunread, hnext, taken, Option.toList_some, Option.toList_none,
      List.length_cons, List.length_nil]
    omega

/-- The reader broadcasts a message, when there is room for it. -/
theorem onward_read (s : Tunnel) (h : Sharing) (u : LeaseStream)
    (pending : List (Tagged StreamFrame))
    (hflow : Flowing toString fromStr bound s h u pending)
    (hunread : h.transport.outbound.unread u.rx = []) (m : Tagged Json)
    (rest : List (Tagged Json)) (hstdout : h.transport.stdout = m :: rest) :
    ∃ s', Onward toString fromStr bound fromSlice s s'
      (.fleet (.server s.server (.transport .read))) (weight h u pending) := by
  let after : Transport := { h.transport with
    stdout := rest
    outbound := h.transport.outbound.send ⟨m.caller, LspMessage.fromJson m.content⟩ }
  have hread : h.transport.step .read = some after := by
    simp only [after, Transport.step, hflow.reading, hstdout]
  -- Everything has been taken, so there is room for one.
  have hroom : s.hasRoom = true := by
    have hstream := stream_of_flowing s h u pending hflow
    rcases hflow.server with ⟨t, ht, hsharing⟩
    simp only [hasRoom, ht, hstream, hsharing, hunread, List.length_nil, decide_eq_true_eq]
    exact hflow.capacity
  have hafter : after.outbound.unread u.rx =
      [⟨m.caller, LspMessage.fromJson m.content⟩] := by
    change (h.transport.outbound.send _).unread u.rx = _
    rw [Channel.unread_send _ _ _ hflow.position, hunread, List.nil_append]
  -- A message is still to come when it goes from the output to the broadcast.
  have hcome : toCome after u = toCome h.transport u := by
    rw [toCome, toCome, hafter, hunread, hstdout]
    rfl
  refine onward_act s h { h with transport := after } u u pending hflow (.transport .read)
    (fun _ => rfl) (by simp [mayMove]) rfl (by simp [room, hroom])
    (by simp [Sharing.step, Sharing.mayMove, hread]) hflow.stream hflow.forwards
    ⟨rfl, .inl rfl⟩ hflow.reading hflow.capacity ?_ rfl hflow.plain rfl
    (fun payload hpayload => ?_) ?_ ?_
  · have hposition := hflow.position
    simp only [after, Channel.send, List.length_append, List.length_singleton]
    omega
  · rw [← hcome]
    exact hpayload
  · change u.seq + (toCome after u).length ≤ bound
    rw [hcome]
    exact hflow.numbers
  · simp only [weight, hafter, hunread, hstdout, List.length_cons, List.length_nil]
    change _ + 5 * rest.length < _
    omega

/-- Nothing is on its way, or a step brings it further. The places are tried from the
    editor's end. -/
theorem progress (fromSlice : List UInt8 → Option Json) (hcompact : Json.PrintsCompact toString)
    (s : Tunnel) (h : Sharing) (u : LeaseStream) (pending : List (Tagged StreamFrame))
    (hflow : Flowing toString fromStr bound s h u pending) :
    (pending = [] ∧ u.queue = [] ∧ u.inHand = none ∧ h.transport.outbound.kept u.rx = [] ∧
      h.transport.stdout = []) ∨
    ∃ a s', Onward toString fromStr bound fromSlice s s' a (weight h u pending) := by
  cases pending with
  | cons frame rest => exact .inr ⟨_, onward_hear hcompact s h u frame rest hflow⟩
  -- From the proxy back to the server: the last place with something in it moves.
  | nil =>
      cases hqueue : u.queue with
      | cons frame rest => exact .inr ⟨_, onward_write s h u [] rest frame hflow hqueue⟩
      | nil =>
          cases hhand : u.inHand with
          | some frame => exact .inr ⟨_, onward_push s h u [] frame hflow hqueue hhand⟩
          | none =>
              by_cases hlags : h.transport.outbound.Lags u.rx
              · exact .inr ⟨_, onward_lagged s h u [] hflow hhand hlags⟩
              · cases hunread : h.transport.outbound.unread u.rx with
                | cons m rest =>
                    exact .inr ⟨_, onward_take s h u [] hflow hhand hlags m rest hunread⟩
                | nil =>
                    cases hstdout : h.transport.stdout with
                    | cons m rest =>
                        exact .inr ⟨_, onward_read s h u [] hflow hunread m rest hstdout⟩
                    | nil =>
                        exact .inl ⟨rfl, rfl, rfl,
                          (Channel.kept_of_not_lags _ _ hlags).trans hunread, rfl⟩

/-- What is on its way comes to rest. The induction is on its weight. -/
theorem ends_at_rest (hcompact : Json.PrintsCompact toString) {exact : Prop} (w : Nat)
    (s : Tunnel) (h : Sharing) (u : LeaseStream) (pending : List (Tagged StreamFrame))
    (hflow : Flowing toString fromStr bound s h u pending) (hw : weight h u pending = w)
    (hdescending : Descending toString exact s) :
    ∃ bs s' t' u', run (step fromSlice toString fromStr) s bs = some s' ∧
      (∀ b ∈ bs, Own s.server s.n b) ∧
      (s'.spoken = s.spoken ∧ s'.proxy.handed = s.proxy.handed) ∧
      s'.fleet.servers.get? s'.server = some t' ∧ s'.stream = some u' ∧ s'.AtRest t' u' ∧
      Descending toString exact s' := by
  induction w using Nat.strongRecOn generalizing s h u pending with
  | ind w ih =>
      have hstream := stream_of_flowing s h u pending hflow
      have hback : DeliveredBack toString fromStr s := fun v hv frame hframe => by
        rw [hstream, Option.some.injEq] at hv
        exact hflow.delivered frame (hv ▸ hframe)
      rcases progress fromSlice hcompact s h u pending hflow with
        ⟨rfl, hqueue, hhand, hkept, hstdout⟩ | ⟨a, s', honward⟩
      · rcases hflow.server with ⟨t, ht, rfl⟩
        -- Nothing is left anywhere.
        exact ⟨[], s, t, u, rfl, by simp, ⟨rfl, rfl⟩, ht, hstream, ⟨hflow.proxy, hflow.forwards,
          hstdout, hkept, hhand, hqueue, hflow.arriving⟩, hdescending⟩
      · rcases honward.flowing with ⟨h', u', pending', hflow', hless⟩
        have hdescending' := descending_step hcompact s s' a honward.step hback
          (fun _ => honward.room) hdescending
        -- One step, and less is left.
        rcases ih _ (hw ▸ hless) s' h' u' pending' hflow' rfl hdescending' with
          ⟨bs, s'', t'', u'', hrun, hown, ⟨hspoken, hhanded⟩, hrest⟩
        rcases honward.same with ⟨hserver, hn, hsame, hsameHanded⟩
        refine ⟨a :: bs, s'', t'', u'', by rw [run_cons a bs s s' honward.step, hrun], ?_,
          ⟨hspoken.trans hsame, hhanded.trans hsameHanded⟩, hrest⟩
        intro b hb
        rcases List.mem_cons.mp hb with rfl | hb
        · exact honward.own
        · have hownb := hown b hb
          rw [hserver, hn] at hownb
          exact hownb

end Tunnel

/-! ### The capacity of the broadcast -/

/-- A step of the fleet leaves the capacity of a server's broadcast. -/
theorem Fleet.served_capacity (server : CallId) (t t' : Server) (a : FleetAction)
    (h : Served server t a t') : t'.sharing.transport.outbound.capacity =
      t.sharing.transport.outbound.capacity := by
  cases h with
  | aside _ _ _ houtput => rw [houtput.outbound]
  | act b _ _ hstep _ =>
      rcases Sharing.sameOutput_step t.sharing t'.sharing b hstep with ⟨c, _, hc⟩ | ⟨_, hsame⟩
      · by_cases hread : c = .read
        · subst hread
          rcases Transport.read_cases _ _ hc with ⟨m, rest, _, ht'⟩
          rw [ht']
          rfl
        · cases c with
          | emit caller payload =>
              simp only [Transport.step, Option.ite_none_right_eq_some, Option.some.injEq] at hc
              rw [← hc.2]
          | _ => rw [(Transport.output_kept _ _ _ hc rfl hread).2]
      · rw [hsame.outbound]

/-- Every server's broadcast keeps as many messages as it was created for. -/
def Fleet.Roomy (f : Fleet) : Prop :=
  ∀ server t, f.servers.get? server = some t →
    t.sharing.transport.outbound.capacity = channelCapacity

theorem Fleet.roomy_step (f f' : Fleet) (a : FleetAction) (h : f.Roomy)
    (hstep : f.step a = some f') : f'.Roomy := by
  intro server t' ht'
  cases hold : f.servers.get? server with
  | some t =>
      rcases served_step f f' a hstep server t hold with ⟨t'', ht'', hserved⟩
      rw [ht', Option.some.injEq] at ht''
      rw [ht'', served_capacity server t t'' a hserved, h server t hold]
  | none =>
      -- A server that is new has just been spawned.
      cases step_effect f f' a hstep with
      | world | spawnFails | booted | bootFailed | request | returned | notifyFails =>
          exact absurd (hold.symm.trans ht') (by simp)
      | spawn call key clientKind g hframe hfree =>
          by_cases hcall : server = call
          · subst hcall
            rw [setServer, Table.get?_set_self, Option.some.injEq] at ht'
            rw [← ht']
            rfl
          · rw [setServer, Table.get?_set_ne _ _ _ _ hcall, hold] at ht'
            cases ht'
      | server _ srv s s' hs hmoves =>
          have hne : server ≠ srv := by
            rintro rfl
            rw [hold] at hs
            cases hs
          rw [setServer, Table.get?_set_ne _ _ _ _ hne, hold] at ht'
          cases ht'
      | notified n call id message key runtime srv s w hframe howner hs hsent hfresh hw =>
          have hne : server ≠ srv := by
            rintro rfl
            rw [hold] at hs
            cases hs
          rw [Table.get?_set_ne _ _ _ _ hne, hold] at ht'
          cases ht'

namespace Tunnel

variable {fromSlice : List UInt8 → Option Json}
variable {toString : Json → List Char} {fromStr : List Char → Option Json}

theorem roomy_step (s s' : Tunnel) (a : TunnelAction) (h : s.fleet.Roomy)
    (hstep : s.step fromSlice toString fromStr a = some s') : s'.fleet.Roomy := by
  have hproxy : ∀ (v : Tunnel) (b : ProxyAction), v.fleet = s.fleet →
      v.moveProxy fromSlice toString fromStr b = some s' → s'.fleet.Roomy := by
    intro v b hv hb
    simp only [moveProxy, Option.map_eq_some_iff] at hb
    rcases hb with ⟨p, _, rfl⟩
    exact hv ▸ h
  cases goes_step s s' a hstep with
  | fleet b fleet _ hb => exact s.fleet.roomy_step fleet b h hb
  | editor b _ _ hmove => exact hproxy s b rfl hmove
  | hear writes _ hmove => exact hproxy { s with toProxy := s.nextRead.2 } _ rfl hmove
  | readLine call _ hread =>
      rcases readLine_step s s' call hread with ⟨b, _, hb, _, _⟩
      exact s.fleet.roomy_step s'.fleet _ h hb
  | write _ _ _ fleet _ _ hb => exact s.fleet.roomy_step fleet _ h hb

/-- From every state of every run in which the proxy, the reader of the server's output and
    the tasks of the connection run, and in which every frame on its way is a message of the
    server that can be read back, there are steps of these alone, none of which fails, after
    which nothing is on its way. If the reader has been in time so far, the editor has then
    been written all that the server has written, in order, between the answers of the
    proxy: one to each `initialize` and `shutdown` request that it had handled before. -/
theorem editor_catches_up (hcompact : Json.PrintsCompact toString) (idleTtl : Duration)
    (fs : List FleetAction) (fleet : Fleet)
    (hfleet : run Fleet.step (Fleet.init idleTtl) fs = some fleet) (attach : CallId) (n : Nat)
    (input : List UInt8) (start : Tunnel)
    (hstart : connect fromSlice fleet attach n input = some start) (as : List TunnelAction)
    (s : Tunnel) (hrun : run (step fromSlice toString fromStr) start as = some s) (t : Server)
    (u : LeaseStream) (ht : s.fleet.servers.get? s.server = some t) (hu : s.stream = some u)
    (hproxy : s.proxy.pc = .running) (hforwards : u.Forwards)
    (hreading : t.sharing.transport.reading = true)
    (hplain : ∀ frame ∈ u.delivered ++ u.queue ++ u.inHand.toList,
      frame.content.frameType = .lspOut ∧ ReadBack toString fromStr frame.content)
    (hcoming : ∀ payload ∈ toCome t.sharing.transport u,
      ∀ seq ≤ u.seq + (toCome t.sharing.transport u).length,
      ReadBack toString fromStr ⟨protocolVersion, .lspOut, u.leaseId, seq, payload⟩) :
    ∃ bs s' t' u', run (step fromSlice toString fromStr) s bs = some s' ∧
      (∀ b ∈ bs, Own s.server s.n b) ∧ s'.spoken = s.spoken ∧
      s'.fleet.servers.get? s'.server = some t' ∧ s'.stream = some u' ∧ s'.AtRest t' u' ∧
      (InTime fromSlice toString fromStr start as →
        ∃ answers, answers.map (fun answer => answer.get "id") =
            (s.proxy.handed.filterMap answeredId).map some ∧
          Interleaved answers s.spoken s'.proxy.stdout) := by
  have hback : DeliveredBack toString fromStr s := fun v hv frame hframe => by
    rw [hu, Option.some.injEq] at hv
    exact (hplain frame (by simp [hv ▸ hframe])).2
  -- What has come down so far is what the server wrote, wherever it is now.
  have hdescending := descending_run hcompact fleet attach n input start hstart as s hrun hback
  -- The broadcast has room for a message, from the first step of the fleet on.
  have hroomy : s.fleet.Roomy := by
    have hfirst : fleet.Roomy := run_invariant (C := fun _ _ => True)
      (fun f a f' hf hstep _ => f.roomy_step f' a hf hstep) fs _ fleet hfleet
      (fun server t ht => by cases ht) (along_true fs _)
    rcases connect_cases fromSlice fleet attach n input start hstart with
      ⟨_, _, _, _, hconnect, _⟩
    exact run_invariant (C := fun _ _ => True)
      (fun v a v' hv hstep _ => roomy_step v v' a hv hstep) as start s hrun
      (fleet.roomy_step start.fleet _ hfirst hconnect) (along_true as start)
  have hall := hdescending
  rcases hall with ⟨t₀, u₀, heard, pending, _, _, _, _, hdown, _, _, _⟩
  have ht₀ := hdown.server
  rw [ht, Option.some.injEq] at ht₀
  have hu₀ := stream_of_joined s t₀ u₀ hdown.toJoined
  rw [hu, Option.some.injEq] at hu₀
  subst ht₀ hu₀
  have hcapacity : 0 < t.sharing.transport.outbound.capacity := by
    rw [hroomy s.server t ht]
    decide
  -- Everything between the server and the editor can move on by itself.
  have hflow : Flowing toString fromStr
      (u.seq + (toCome t.sharing.transport u).length) s t.sharing u pending :=
    ⟨⟨t, ht, rfl⟩, hdown.stream, hproxy, hforwards, hreading, hcapacity, hdown.carried.bound,
      fun frame hframe => (hplain frame (by simp [hframe])).2, hdown.arriving,
      fun frame hframe => by
        have hmem : frame ∈ u.delivered ++ u.queue ++ u.inHand.toList := by
          rw [hdown.delivered]
          simp only [List.mem_append] at hframe ⊢
          tauto
        exact ⟨hdown.carried.versions frame hmem, hplain frame hmem⟩,
      hcoming, le_rfl⟩
  -- And so it does, until nothing is left on the way.
  rcases ends_at_rest hcompact _ s t.sharing u pending hflow rfl hdescending with
    ⟨bs, s', t', u', hrun', hown, ⟨hspoken, hsameHanded⟩, ht', hu', hrest, hdescending'⟩
  refine ⟨bs, s', t', u', hrun', hown, hspoken, ht', hu', hrest, fun hintime => ?_⟩
  rcases hdescending' with
    ⟨t₁, u₁, heard', pending', messages, answers, shown, warning, hdown', hhanded, haccount, hshown⟩
  have ht₁ := hdown'.server
  rw [ht', Option.some.injEq] at ht₁
  have hu₁ := stream_of_joined s' t₁ u₁ hdown'.toJoined
  rw [hu', Option.some.injEq] at hu₁
  subst ht₁ hu₁
  -- At rest the whole of `spoken` has been shown, among the proxy's answers.
  have hwritten := hshown.written
  rw [shown_atRest s' t' u' heard' pending' answers shown warning hdown' hshown hrest hintime,
    (hshown.running hrest.proxy).2, List.append_nil, hspoken] at hwritten
  have hanswers := Proxy.answers_of_running s'.proxy answers hrest.proxy
    (Proxy.hasAnswered_of_account _ _ messages answers hhanded haccount)
  rw [hsameHanded] at hanswers
  exact ⟨answers, hanswers, hwritten⟩

open Connection (plainText plain_compact)

/-- What is read in the text of a frame with a message of the server. -/
def readNumbered (text : List Char) : Option Json :=
  ((List.range 3).map fun seq => StreamFrame.toValue
    ⟨protocolVersion, .lspOut, "lease_1", seq, .arr []⟩).find? fun value => plainText value = text

/-- The server writes a message. -/
def serverWrites : List TunnelAction :=
  [.fleet (.server 0 (.transport (.emit none (.arr []))))]

theorem serverWrites_ends : ∃ fleet start s t u,
    run Fleet.step (Fleet.init 0) leasedFleet = some fleet ∧
      connect readEmptyArray fleet 0 3 [] = some start ∧
      run (step readEmptyArray plainText readNumbered) start serverWrites = some s ∧
      s.fleet.servers.get? s.server = some t ∧ s.stream = some u ∧
      (s.proxy.pc = .running ∧ u.runtimeTask = .running ∧ u.writerTask = .running ∧
        t.sharing.transport.reading = true) ∧
      u.delivered ++ u.queue ++ u.inHand.toList = [] ∧
      (∀ payload ∈ toCome t.sharing.transport u,
        ∀ seq ≤ u.seq + (toCome t.sharing.transport u).length,
        readNumbered (plainText (StreamFrame.toValue
          ⟨protocolVersion, .lspOut, u.leaseId, seq, payload⟩)) =
          some (StreamFrame.toValue ⟨protocolVersion, .lspOut, u.leaseId, seq, payload⟩)) ∧
      s.spoken = [.arr []] ∧
      Along (step readEmptyArray plainText readNumbered) (fun u a => u.room a = true) start
        serverWrites := by
  have hall : ((run Fleet.step (Fleet.init 0) leasedFleet).bind fun fleet =>
      (connect readEmptyArray fleet 0 3 []).bind fun start =>
        (run (step readEmptyArray plainText readNumbered) start serverWrites).bind fun s =>
          (s.fleet.servers.get? s.server).bind fun t => s.stream.map fun u => decide (
            (s.proxy.pc = .running ∧ u.runtimeTask = .running ∧ u.writerTask = .running ∧
              t.sharing.transport.reading = true) ∧
            u.delivered ++ u.queue ++ u.inHand.toList = [] ∧
            (∀ payload ∈ toCome t.sharing.transport u,
              ∀ seq ≤ u.seq + (toCome t.sharing.transport u).length,
              readNumbered (plainText (StreamFrame.toValue
                ⟨protocolVersion, .lspOut, u.leaseId, seq, payload⟩)) =
                some (StreamFrame.toValue
                  ⟨protocolVersion, .lspOut, u.leaseId, seq, payload⟩)) ∧
            s.spoken = [.arr []] ∧
            Along (step readEmptyArray plainText readNumbered) (fun u a => u.room a = true) start
              serverWrites)) = some true := by
    decide +kernel
  rcases Option.bind_eq_some_iff.mp hall with ⟨fleet, hfleet, hall⟩
  rcases Option.bind_eq_some_iff.mp hall with ⟨start, hstart, hall⟩
  rcases Option.bind_eq_some_iff.mp hall with ⟨s, hs, hall⟩
  rcases Option.bind_eq_some_iff.mp hall with ⟨t, ht, hall⟩
  rcases Option.map_eq_some_iff.mp hall with ⟨u, hu, hall⟩
  exact ⟨fleet, start, s, t, u, hfleet, hstart, hs, ht, hu, of_decide_eq_true hall⟩

/-- The message will be shown. -/
theorem editor_catches_up_written : ∃ s bs s',
    run (step readEmptyArray plainText readNumbered) s bs = some s' ∧ s.spoken = [.arr []] ∧
      ∃ answers, Interleaved answers s.spoken s'.proxy.stdout := by
  rcases serverWrites_ends with
    ⟨fleet, start, s, t, u, hfleet, hstart, hs, ht, hu, ⟨hpc, hruntime, hwriter, hreading⟩, hempty,
      hcoming, hspoken, hintime⟩
  rcases editor_catches_up plain_compact 0 leasedFleet fleet hfleet 0 3 [] start hstart serverWrites
    s hs t u ht hu hpc ⟨hruntime, hwriter⟩ hreading (by simp [hempty]) hcoming with
    ⟨bs, s', _, _, hrun, _, _, _, _, _, hshown⟩
  rcases hshown hintime with ⟨answers, _, hwritten⟩
  exact ⟨s, bs, s', hrun, hspoken, answers, hwritten⟩

end Tunnel

end Lspee
