import Mathlib.Data.List.DropRight
import PiWatch.Framework.Dict
import PiWatch.Framework.Run
import PiWatch.Framework.Separator

/-!
# The log viewer

A socket of the log viewer follows one container. The sender of the backend reads its lines and
sends them in order; the page keeps the end of what it receives. Another pod is followed through
another socket, and the socket before it is closed first.
-/

namespace PiWatch

namespace Logs

/-- `tail_lines`. -/
def tailLines : ℕ := 200

/-- A container: its pod, and how many containers were started before it. -/
structure Container where
  pod : String × String
  run : ℕ
  deriving DecidableEq

inductive LogFrame
  | log (line : String)
  | logError (error : String)

/-- A socket from both ends: what the sender of the backend has read and sent, and how much of
it has reached the browser. -/
structure LogSocket where
  pod : String × String
  source : Option Container
  first : ℕ
  next : ℕ
  sending : Bool
  sent : List LogFrame
  received : ℕ
  isOpen : Bool

/-- `logs` has the raw lines a container has written, `runs` the container each pod is in. -/
structure Sys where
  logs : Dict Container (List (List UInt8))
  runs : Dict (String × String) ℕ
  started : ℕ
  sockets : Dict ℕ LogSocket
  opened : ℕ
  current : Option ℕ
  selected : String
  lines : List String

inductive Action
  | start (pod : String × String)
  | remove (pod : String × String)
  | write (pod : String × String) (raw : List UInt8)
  | select (key : String)
  | attach (id : ℕ)
  | send (id : ℕ)
  | fail (id : ℕ) (error : String)
  | finish (id : ℕ)
  | deliver (id : ℕ)
  | lose (id : ℕ)

/-- `selected.split("/")`, read as a namespace and a pod. -/
def address (key : String) : String × String :=
  match (key.toList.splitOn '/').map String.ofList with
  | ns :: pod :: _ => (ns, pod)
  | [ns] => (ns, "undefined")
  | [] => ("", "undefined")

/-- `ws.onmessage` of the log viewer. -/
def onMessage (lines : List String) : LogFrame → List String
  | .log line => lines.drop (lines.length - 800) ++ [line]
  | .logError error => lines ++ ["⚠ " ++ error]

def logOf (logs : Dict Container (List (List UInt8))) (c : Container) : List (List UInt8) :=
  (logs.get? c).getD []

/-- The container a pod is in writes a line. -/
def Sys.write (s : Sys) (pod : String × String) (raw : List UInt8) : Sys :=
  match s.runs.get? pod with
  | none => s
  | some run => { s with logs := s.logs.insert ⟨pod, run⟩ (logOf s.logs ⟨pod, run⟩ ++ [raw]) }

/-- The cleanup of the effect: `ws.close()`. -/
def Sys.cleanup (s : Sys) : Sys :=
  match s.current with
  | none => s
  | some id => { s with sockets := s.sockets.modify id fun sock => { sock with isOpen := false } }

/-- The effect for what is selected now. -/
def Sys.effect (s : Sys) (key : String) : Sys :=
  if key = "" then { s with current := none, selected := key, lines := [] }
  else
    { s with
      sockets := s.sockets.insert s.opened ⟨address key, none, 0, 0, true, [], 0, true⟩
      opened := s.opened + 1
      current := some s.opened
      selected := key
      lines := [] }

/-- `setSelected`. The effect runs only when the selection changes. -/
def Sys.select (s : Sys) (key : String) : Sys :=
  if key = s.selected then s else s.cleanup.effect key

/-- `read_namespaced_pod_log`, answered: from here on the lines of one container are followed. -/
def Sys.attach (s : Sys) (sock : LogSocket) : LogSocket :=
  match s.runs.get? sock.pod with
  | none => sock
  | some run =>
    if sock.sending ∧ sock.source = none then
      { sock with
        source := some ⟨sock.pod, run⟩
        first := (logOf s.logs ⟨sock.pod, run⟩).length - tailLines
        next := (logOf s.logs ⟨sock.pod, run⟩).length - tailLines }
    else sock

section Decoding

variable (decode : List UInt8 → String)

/-- `raw.decode("utf-8", "replace").rstrip("\n")`. -/
def lineOf (raw : List UInt8) : String :=
  String.ofList ((decode raw).toList.rdropWhile (· = '\n'))

/-- One round of the loop in `sender`. -/
def Sys.send (s : Sys) (sock : LogSocket) : LogSocket :=
  match sock.sending, sock.source.bind fun c => (logOf s.logs c)[sock.next]? with
  | true, some raw =>
    { sock with next := sock.next + 1, sent := sock.sent ++ [.log (lineOf decode raw)] }
  | _, _ => sock

/-- The handler of `sender`. -/
def LogSocket.fail (sock : LogSocket) (error : String) : LogSocket :=
  if sock.sending then { sock with sending := false, sent := sock.sent ++ [.logError error] }
  else sock

/-- The next frame reaches the browser. A closed socket has no messages. -/
def Sys.deliver (s : Sys) (id : ℕ) : Sys :=
  match s.sockets.get? id with
  | none => s
  | some sock =>
    match sock.isOpen, sock.sent[sock.received]? with
    | true, some frame =>
      { s with
        sockets := s.sockets.insert id { sock with received := sock.received + 1 }
        lines := onMessage s.lines frame }
    | _, _ => s

def step (s : Sys) : Action → Sys
  | .start pod => { s with runs := s.runs.insert pod s.started, started := s.started + 1 }
  | .remove pod => { s with runs := s.runs.erase pod }
  | .write pod raw => s.write pod raw
  | .select key => s.select key
  | .attach id => { s with sockets := s.sockets.modify id s.attach }
  | .send id => { s with sockets := s.sockets.modify id (s.send decode) }
  | .fail id error => { s with sockets := s.sockets.modify id (·.fail error) }
  | .finish id =>
    { s with sockets := s.sockets.modify id fun sock => { sock with sending := false } }
  | .deliver id => s.deliver id
  | .lose id => { s with sockets := s.sockets.modify id fun sock => { sock with isOpen := false } }

def start : Sys := ⟨∅, ∅, 0, ∅, 0, none, "", []⟩

end Decoding

/-! ## What the page keeps -/

/-- The lines after some frames. -/
def view (frames : List LogFrame) : List String := frames.foldl onMessage []

theorem view_concat (frames : List LogFrame) (frame : LogFrame) :
    view (frames ++ [frame]) = onMessage (view frames) frame := by
  rw [view, List.foldl_append]
  rfl

/-- `slice(-800)` before each line leaves the last 801. -/
theorem view_log (ls : List String) : view (ls.map .log) = ls.drop (ls.length - 801) := by
  induction ls using List.reverseRecOn with
  | nil => rfl
  | append_singleton ls l ih =>
    rw [List.map_append, List.map_singleton, view_concat, ih, onMessage, List.drop_drop,
      List.length_drop, List.length_append, List.length_singleton]
    have hcut : ls.length - 801 + (ls.length - (ls.length - 801) - 800) =
        ls.length + 1 - 801 := by omega
    rw [hcut, List.drop_append_of_le_length (by omega)]

theorem view_logError (frames : List LogFrame) (errors : List String) :
    view (frames ++ errors.map .logError) = view frames ++ errors.map ("⚠ " ++ ·) := by
  induction errors using List.reverseRecOn with
  | nil => simp
  | append_singleton errors e ih =>
    rw [List.map_append, List.map_singleton, ← List.append_assoc, view_concat, ih, onMessage,
      List.map_append, List.map_singleton, List.append_assoc]

/-- The parts of a namespaced key. -/
theorem address_key {ns pod : String} (hns : '/' ∉ ns.toList) (hpod : '/' ∉ pod.toList) :
    address (ns ++ "/" ++ pod) = (ns, pod) := by
  have hchars : (ns ++ "/" ++ pod).toList = ns.toList ++ '/' :: pod.toList := by
    rw [String.toList_append, String.toList_append]
    simp
  unfold address
  rw [hchars, List.splitOn_append_cons_self_of_not_mem hns, List.splitOn_eq_singleton hpod]
  simp

/-! ## One socket -/

variable (decode : List UInt8 → String)

/-- The lines the sender has read. -/
def LogSocket.read (logs : Dict Container (List (List UInt8))) (sock : LogSocket) : List String :=
  match sock.source with
  | none => []
  | some c => (((logOf logs c).take sock.next).drop sock.first).map (lineOf decode)

structure SoundSocket (logs : Dict Container (List (List UInt8)))
    (sock : LogSocket) : Prop where
  pod : ∀ c, sock.source = some c → c.pod = sock.pod
  first_le : ∀ c, sock.source = some c → sock.first ≤ (logOf logs c).length - tailLines
  first_le_next : sock.first ≤ sock.next
  next_le : ∀ c, sock.source = some c → sock.next ≤ (logOf logs c).length
  sent : ∃ errors : List String, errors.length ≤ 1 ∧ (sock.sending = true → errors = []) ∧
    sock.sent = (sock.read decode logs).map .log ++ errors.map .logError
  received_le : sock.received ≤ sock.sent.length

/-- What the sender does to a socket: it may send more, and the browser has received no more. -/
structure Sends (sock sock' : LogSocket) : Prop where
  pod : sock'.pod = sock.pod
  received : sock'.received = sock.received
  isOpen : sock'.isOpen = true → sock.isOpen = true
  sent : sock.sent <+: sock'.sent

variable {decode}

theorem Sends.refl (sock : LogSocket) : Sends sock sock :=
  ⟨rfl, rfl, id, List.prefix_rfl⟩

/-- A socket stays sound while the logs grow. -/
theorem SoundSocket.mono {logs logs' : Dict Container (List (List UInt8))} {sock : LogSocket}
    (h : SoundSocket decode logs sock)
    (hlogs : ∀ c, logOf logs c <+: logOf logs' c) : SoundSocket decode logs' sock := by
  have hread : sock.read decode logs' = sock.read decode logs := by
    unfold LogSocket.read
    cases hsource : sock.source with
    | none => rfl
    | some c =>
      obtain ⟨more, hmore⟩ := hlogs c
      simp only [← hmore, List.take_append_of_le_length (h.next_le c hsource)]
  constructor
  · exact h.pod
  · intro c hc
    exact (h.first_le c hc).trans (Nat.sub_le_sub_right (hlogs c).length_le _)
  · exact h.first_le_next
  · intro c hc
    exact (h.next_le c hc).trans (hlogs c).length_le
  · rw [hread]
    exact h.sent
  · exact h.received_le

theorem sound_attach {s : Sys} {sock : LogSocket} (h : SoundSocket decode s.logs sock) :
    SoundSocket decode s.logs (s.attach sock) ∧ Sends sock (s.attach sock) := by
  unfold Sys.attach
  cases hrun : s.runs.get? sock.pod with
  | none => exact ⟨h, Sends.refl sock⟩
  | some run =>
    dsimp only
    split_ifs with hidle
    · obtain ⟨hsending, hsource⟩ := hidle
      refine ⟨⟨?_, ?_, le_rfl, ?_, ?_, h.received_le⟩, rfl, rfl, id, List.prefix_rfl⟩
      · rintro c ⟨⟩
        rfl
      · rintro c ⟨⟩
        exact le_rfl
      · rintro c ⟨⟩
        exact Nat.sub_le _ _
      · obtain ⟨errors, hone, hnone, hsent⟩ := h.sent
        refine ⟨errors, hone, hnone, ?_⟩
        rw [hsent]
        simp [LogSocket.read, hsource]
    · exact ⟨h, Sends.refl sock⟩

theorem sound_send {s : Sys} {sock : LogSocket} (h : SoundSocket decode s.logs sock) :
    SoundSocket decode s.logs (s.send decode sock) ∧ Sends sock (s.send decode sock) := by
  unfold Sys.send
  split
  · rename_i raw hsending hnext
    obtain ⟨c, hsource, hraw⟩ := Option.bind_eq_some_iff.mp hnext
    have hlt : sock.next < (logOf s.logs c).length := (List.getElem?_eq_some_iff.mp hraw).1
    obtain ⟨errors, -, hnone, hsent⟩ := h.sent
    have hread : ((logOf s.logs c).take (sock.next + 1)).drop sock.first =
        ((logOf s.logs c).take sock.next).drop sock.first ++ [raw] := by
      rw [List.take_add_one, hraw, List.drop_append_of_le_length]
      · rfl
      · rw [List.length_take, Nat.min_eq_left hlt.le]
        exact h.first_le_next
    refine ⟨⟨h.pod, h.first_le, h.first_le_next.trans (Nat.le_succ _), ?_, ?_, ?_⟩, rfl, rfl, id,
      List.prefix_append _ _⟩
    · rintro c' hc'
      obtain rfl := Option.some.inj (hsource.symm.trans hc')
      exact hlt
    · refine ⟨[], by simp, fun _ => rfl, ?_⟩
      rw [hnone hsending] at hsent
      simp only [LogSocket.read, hsource, List.map_nil, List.append_nil] at hsent ⊢
      rw [hsent, hread, List.map_append, List.map_append]
      rfl
    · rw [List.length_append]
      exact h.received_le.trans (Nat.le_add_right _ _)
  · exact ⟨h, Sends.refl sock⟩

theorem sound_fail {s : Sys} {sock : LogSocket} (h : SoundSocket decode s.logs sock)
    (error : String) :
    SoundSocket decode s.logs (sock.fail error) ∧ Sends sock (sock.fail error) := by
  unfold LogSocket.fail
  split_ifs with hsending
  · obtain ⟨errors, -, hnone, hsent⟩ := h.sent
    refine ⟨⟨h.pod, h.first_le, h.first_le_next, h.next_le, ?_, ?_⟩, rfl, rfl, id,
      List.prefix_append _ _⟩
    · refine ⟨[error], le_rfl, nofun, ?_⟩
      rw [hsent, hnone hsending, List.map_nil, List.append_nil]
      rfl
    · rw [List.length_append]
      exact h.received_le.trans (Nat.le_add_right _ _)
  · exact ⟨h, Sends.refl sock⟩

theorem sound_finish {s : Sys} {sock : LogSocket} (h : SoundSocket decode s.logs sock) :
    SoundSocket decode s.logs { sock with sending := false } ∧
      Sends sock { sock with sending := false } := by
  obtain ⟨errors, hone, -, hsent⟩ := h.sent
  exact ⟨⟨h.pod, h.first_le, h.first_le_next, h.next_le, ⟨errors, hone, nofun, hsent⟩,
    h.received_le⟩, rfl, rfl, id, List.prefix_rfl⟩

theorem sound_close {s : Sys} {sock : LogSocket} (h : SoundSocket decode s.logs sock) :
    SoundSocket decode s.logs { sock with isOpen := false } ∧
      Sends sock { sock with isOpen := false } :=
  ⟨⟨h.pod, h.first_le, h.first_le_next, h.next_le, h.sent, h.received_le⟩, rfl, rfl, nofun,
    List.prefix_rfl⟩

/-! ## The page and its sockets -/

variable (decode)

/-- Only the socket of the selected pod is open, and the page shows what it has received. -/
structure Sound (s : Sys) : Prop where
  sockets : ∀ id sock, s.sockets.get? id = some sock → SoundSocket decode s.logs sock
  fresh : ∀ id sock, s.sockets.get? id = some sock → id < s.opened
  isOpen : ∀ id sock, s.sockets.get? id = some sock → sock.isOpen = true → s.current = some id
  idle : s.current = none → s.selected = "" ∧ s.lines = []
  follows : ∀ id, s.current = some id → s.selected ≠ "" ∧ ∃ sock, s.sockets.get? id = some sock ∧
    sock.pod = address s.selected ∧ s.lines = view (sock.sent.take sock.received)

variable {decode}

theorem sound_start : Sound decode start where
  sockets := nofun
  fresh := nofun
  isOpen := nofun
  idle := fun _ => ⟨rfl, rfl⟩
  follows := nofun

theorem take_of_prefix {α : Type*} {l l' : List α} (h : l <+: l') {n : ℕ} (hn : n ≤ l.length) :
    l.take n = l'.take n := by
  obtain ⟨more, rfl⟩ := h
  rw [List.take_append_of_le_length hn]

/-- Sound sockets stay sound when one of them is worked on. -/
theorem sound_modify {s : Sys} (h : Sound decode s) (id : ℕ) {f : LogSocket → LogSocket}
    (hf : ∀ sock, SoundSocket decode s.logs sock →
      SoundSocket decode s.logs (f sock) ∧ Sends sock (f sock)) :
    Sound decode { s with sockets := s.sockets.modify id f } := by
  have hold : ∀ id' sock', (s.sockets.modify id f).get? id' = some sock' →
      ∃ sock, s.sockets.get? id' = some sock ∧ SoundSocket decode s.logs sock' ∧
        Sends sock sock' := by
    intro id' sock' hsock'
    rw [Dict.get?_modify] at hsock'
    split_ifs at hsock' with hid
    · subst hid
      obtain ⟨sock, hsock, rfl⟩ := Option.map_eq_some_iff.mp hsock'
      exact ⟨sock, hsock, hf sock (h.sockets id' sock hsock)⟩
    · exact ⟨sock', hsock', h.sockets id' sock' hsock', Sends.refl sock'⟩
  constructor
  · intro id' sock' hsock'
    obtain ⟨sock, -, hsound, -⟩ := hold id' sock' hsock'
    exact hsound
  · intro id' sock' hsock'
    obtain ⟨sock, hsock, -⟩ := hold id' sock' hsock'
    exact h.fresh id' sock hsock
  · intro id' sock' hsock' hopen
    obtain ⟨sock, hsock, -, hsends⟩ := hold id' sock' hsock'
    exact h.isOpen id' sock hsock (hsends.isOpen hopen)
  · exact h.idle
  · intro id' hid'
    obtain ⟨hselected, sock, hsock, hpod, hlines⟩ := h.follows id' hid'
    refine ⟨hselected, if id' = id then f sock else sock, ?_, ?_, ?_⟩
    · change (s.sockets.modify id f).get? id' = _
      rw [Dict.get?_modify]
      split_ifs with hid
      · rw [← hid, hsock]
        rfl
      · exact hsock
    · split_ifs
      · exact (hf sock (h.sockets id' sock hsock)).2.pod.trans hpod
      · exact hpod
    · have hsound := h.sockets id' sock hsock
      split_ifs
      · have hsends := (hf sock hsound).2
        rw [hsends.received, ← take_of_prefix hsends.sent hsound.received_le]
        exact hlines
      · exact hlines

theorem sound_logs {s : Sys} (h : Sound decode s) {logs : Dict Container (List (List UInt8))}
    (hlogs : ∀ c, logOf s.logs c <+: logOf logs c) : Sound decode { s with logs := logs } where
  sockets := fun id sock hsock => (h.sockets id sock hsock).mono hlogs
  fresh := h.fresh
  isOpen := h.isOpen
  idle := h.idle
  follows := h.follows

theorem sound_write {s : Sys} (h : Sound decode s) (pod : String × String) (raw : List UInt8) :
    Sound decode (s.write pod raw) := by
  unfold Sys.write
  split
  · exact h
  · rename_i run hrun
    refine sound_logs h fun c => ?_
    by_cases hc : c = ⟨pod, run⟩
    · subst hc
      simp [logOf, Dict.get?_insert_self]
    · simp [logOf, Dict.get?_insert_of_ne _ _ hc]

/-- Pods that come and go change no log that is followed. -/
theorem sound_runs {s : Sys} (h : Sound decode s) (runs : Dict (String × String) ℕ)
    (started : ℕ) : Sound decode { s with runs := runs, started := started } where
  sockets := h.sockets
  fresh := h.fresh
  isOpen := h.isOpen
  idle := h.idle
  follows := h.follows

theorem sound_deliver {s : Sys} (h : Sound decode s) (id : ℕ) : Sound decode (s.deliver id) := by
  unfold Sys.deliver
  cases hsock : s.sockets.get? id with
  | none => exact h
  | some sock =>
    dsimp only
    split
    · rename_i frame hopen hframe
      have hcurrent := h.isOpen id sock hsock hopen
      have hlt : sock.received < sock.sent.length := (List.getElem?_eq_some_iff.mp hframe).1
      obtain ⟨hselected, sock', hsock', hpod, hlines⟩ := h.follows id hcurrent
      obtain rfl := Option.some.inj (hsock.symm.trans hsock')
      have hsound := h.sockets id sock hsock
      constructor
      · intro id' sock' hsock'
        rw [Dict.get?_insert] at hsock'
        split_ifs at hsock' with hid
        · obtain rfl := Option.some.inj hsock'
          exact ⟨hsound.pod, hsound.first_le, hsound.first_le_next, hsound.next_le, hsound.sent,
            hlt⟩
        · exact h.sockets id' sock' hsock'
      · intro id' sock' hsock'
        rw [Dict.get?_insert] at hsock'
        split_ifs at hsock' with hid
        · subst hid
          exact h.fresh id' sock hsock
        · exact h.fresh id' sock' hsock'
      · intro id' sock' hsock' hopen'
        rw [Dict.get?_insert] at hsock'
        split_ifs at hsock' with hid
        · subst hid
          exact hcurrent
        · exact h.isOpen id' sock' hsock' hopen'
      · intro hnone
        rw [hcurrent] at hnone
        cases hnone
      · intro id' hid'
        obtain rfl := Option.some.inj (hcurrent.symm.trans hid')
        refine ⟨hselected, _, Dict.get?_insert_self _ _ _, hpod, ?_⟩
        change onMessage s.lines frame = view (sock.sent.take (sock.received + 1))
        rw [List.take_add_one, hframe, Option.toList_some, view_concat, ← hlines]
    · exact h

/-- The cleanup leaves no socket open. -/
theorem sound_cleanup {s : Sys} (h : Sound decode s) : Sound decode s.cleanup ∧
    ∀ id sock, s.cleanup.sockets.get? id = some sock → sock.isOpen = false := by
  unfold Sys.cleanup
  split
  · rename_i hcurrent
    refine ⟨h, fun id sock hsock => ?_⟩
    by_contra hopen
    have hsome := h.isOpen id sock hsock (eq_true_of_ne_false hopen)
    rw [hcurrent] at hsome
    cases hsome
  · rename_i id hcurrent
    refine ⟨sound_modify h id fun _ => sound_close, fun id' sock' hsock' => ?_⟩
    rw [Dict.get?_modify] at hsock'
    split_ifs at hsock' with hid
    · obtain ⟨sock, -, rfl⟩ := Option.map_eq_some_iff.mp hsock'
      rfl
    · by_contra hopen
      have hsome := h.isOpen id' sock' hsock' (eq_true_of_ne_false hopen)
      rw [hcurrent] at hsome
      exact hid (Option.some.inj hsome).symm

theorem sound_effect {s : Sys} (h : Sound decode s)
    (hclosed : ∀ id sock, s.sockets.get? id = some sock → sock.isOpen = false) (key : String) :
    Sound decode (s.effect key) := by
  unfold Sys.effect
  split_ifs with hkey
  · constructor
    · exact h.sockets
    · exact h.fresh
    · intro id sock hsock hopen
      rw [hclosed id sock hsock] at hopen
      cases hopen
    · exact fun _ => ⟨hkey, rfl⟩
    · nofun
  · constructor
    · intro id sock hsock
      rw [Dict.get?_insert] at hsock
      split_ifs at hsock with hid
      · obtain rfl := Option.some.inj hsock
        exact ⟨nofun, nofun, le_rfl, nofun, ⟨[], Nat.zero_le 1, fun _ => rfl, rfl⟩, le_rfl⟩
      · exact h.sockets id sock hsock
    · intro id sock hsock
      rw [Dict.get?_insert] at hsock
      split_ifs at hsock with hid
      · rw [hid]
        exact Nat.lt_succ_self _
      · exact (h.fresh id sock hsock).trans (Nat.lt_succ_self _)
    · intro id sock hsock hopen
      rw [Dict.get?_insert] at hsock
      split_ifs at hsock with hid
      · rw [hid]
      · rw [hclosed id sock hsock] at hopen
        cases hopen
    · nofun
    · rintro id ⟨⟩
      exact ⟨hkey, _, Dict.get?_insert_self _ _ _, rfl, rfl⟩

theorem sound_step {s : Sys} (h : Sound decode s) (a : Action) :
    Sound decode (step decode s a) := by
  cases a with
  | start pod => exact sound_runs h _ _
  | remove pod => exact sound_runs h _ _
  | write pod raw => exact sound_write h pod raw
  | select key =>
    change Sound decode (s.select key)
    unfold Sys.select
    split_ifs
    · exact h
    · exact sound_effect (sound_cleanup h).1 (sound_cleanup h).2 key
  | attach id => exact sound_modify h id fun _ => sound_attach
  | send id => exact sound_modify h id fun _ => sound_send
  | fail id error => exact sound_modify h id fun _ hsock => sound_fail hsock error
  | finish id => exact sound_modify h id fun _ => sound_finish
  | deliver id => exact sound_deliver h id
  | lose id => exact sound_modify h id fun _ => sound_close

theorem sound_run (as : List Action) : Sound decode (runFrom (step decode) start as) :=
  @runFrom_invariant _ _ (step decode) (Sound decode) (fun _ a h => sound_step h a) start
    sound_start as

/-! ## What is shown -/

variable (decode)

/-- What the viewer shows of a pod: lines its container wrote, in the order it wrote them and
without a gap, then the error the stream ended with. -/
structure ShowsPod (s : Sys) (pod : String × String) (shown errors : List String) : Prop where
  lines : s.lines = shown ++ errors.map ("⚠ " ++ ·)
  shown_le : shown.length ≤ 801
  errors_le : errors.length ≤ 1
  written : shown = [] ∨ ∃ c : Container, c.pod = pod ∧
    shown <:+: (logOf s.logs c).map (lineOf decode)

/-- The sender has read everything there is, and everything it sent has been received. -/
structure CaughtUp (s : Sys) (sock : LogSocket) (c : Container) : Prop where
  source : sock.source = some c
  next : sock.next = (logOf s.logs c).length
  sending : sock.sending = true
  received : sock.received = sock.sent.length

variable {decode}

theorem view_take {ls errors : List String} (n : ℕ) :
    view ((ls.map LogFrame.log ++ errors.map LogFrame.logError).take n) =
      (ls.take n).drop ((ls.take n).length - 801) ++
        (errors.take (n - ls.length)).map ("⚠ " ++ ·) := by
  rw [List.take_append, List.length_map, ← List.map_take, ← List.map_take, view_logError, view_log]

theorem SoundSocket.read_infix {logs : Dict Container (List (List UInt8))} {sock : LogSocket}
    (h : SoundSocket decode logs sock) : sock.read decode logs = [] ∨ ∃ c : Container,
      c.pod = sock.pod ∧ sock.read decode logs <:+: (logOf logs c).map (lineOf decode) := by
  unfold LogSocket.read
  cases hsource : sock.source with
  | none => exact Or.inl rfl
  | some c =>
    refine Or.inr ⟨c, h.pod c hsource, List.IsInfix.map _ ?_⟩
    exact (List.drop_suffix _ _).isInfix.trans (List.take_prefix _ _).isInfix

theorem showsPod_of_sound {s : Sys} (h : Sound decode s) (hselected : s.selected ≠ "") :
    ∃ shown errors, ShowsPod decode s (address s.selected) shown errors := by
  obtain ⟨id, hcurrent⟩ : ∃ id, s.current = some id :=
    Option.ne_none_iff_exists'.mp fun hnone => hselected (h.idle hnone).1
  obtain ⟨-, sock, hsock, hpod, hlines⟩ := h.follows id hcurrent
  have hsound := h.sockets id sock hsock
  obtain ⟨errors, hone, -, hsent⟩ := hsound.sent
  rw [hsent, view_take] at hlines
  refine ⟨_, _, hlines, ?_, ?_, ?_⟩
  · rw [List.length_drop]
    omega
  · exact (List.length_take_le' _ _).trans hone
  · have hcut : ∀ ls : List String, ∀ n, (ls.take n).drop ((ls.take n).length - 801) <:+: ls :=
      fun ls n => (List.drop_suffix _ _).isInfix.trans (List.take_prefix _ _).isInfix
    rcases hsound.read_infix with hnothing | ⟨c, hc, hinfix⟩
    · left
      simp [hnothing]
    · exact Or.inr ⟨c, hc.trans hpod, (hcut _ _).trans hinfix⟩

theorem lines_of_caughtUp {s : Sys} (h : Sound decode s) {id : ℕ} {sock : LogSocket}
    {c : Container} (hcurrent : s.current = some id) (hsock : s.sockets.get? id = some sock)
    (hup : CaughtUp s sock c) : ∃ k, 200 ≤ k ∧ k ≤ 801 ∧
      s.lines = ((logOf s.logs c).map (lineOf decode)).drop ((logOf s.logs c).length - k) := by
  obtain ⟨-, sock', hsock', -, hlines⟩ := h.follows id hcurrent
  obtain rfl := Option.some.inj (hsock.symm.trans hsock')
  have hsound := h.sockets id sock hsock
  obtain ⟨errors, -, hnone, hsent⟩ := hsound.sent
  have hfirst := hsound.first_le c hup.source
  -- every line since the first one is there
  have hread : sock.read decode s.logs =
      ((logOf s.logs c).drop sock.first).map (lineOf decode) := by
    simp only [LogSocket.read, hup.source, hup.next, List.take_length]
  rw [hup.received, List.take_length, hsent, hnone hup.sending, List.map_nil, List.append_nil,
    view_log, hread, ← List.map_drop, List.drop_drop, List.length_map, List.length_drop] at hlines
  have hlength : tailLines = 200 := rfl
  have hcut : sock.first + ((logOf s.logs c).length - sock.first - 801) =
      (logOf s.logs c).length - max 200 (min 801 ((logOf s.logs c).length - sock.first)) := by
    omega
  refine ⟨max 200 (min 801 ((logOf s.logs c).length - sock.first)), le_max_left _ _, by omega, ?_⟩
  rw [hlines, ← List.map_drop, hcut]

/-- Whatever pods, sockets and sender do, and in whatever order pods are selected: nothing is
shown while no pod is selected, and for a selected pod the viewer shows the latest part of what
it received of that pod, never a line of another. Once it has caught up it shows the last lines
of the log, at least 200 and at most 801 if there are as many. -/
theorem viewer_shows_selected (decode : List UInt8 → String) (as : List Action) :
    let s := runFrom (step decode) start as
    (s.selected = "" → s.lines = []) ∧
    (∀ ns pod, '/' ∉ ns.toList → '/' ∉ pod.toList → s.selected = ns ++ "/" ++ pod →
      ∃ shown errors, ShowsPod decode s (ns, pod) shown errors) ∧
    ∀ id sock c, s.current = some id → s.sockets.get? id = some sock → CaughtUp s sock c →
      ∃ k, 200 ≤ k ∧ k ≤ 801 ∧
        s.lines = ((logOf s.logs c).map (lineOf decode)).drop ((logOf s.logs c).length - k) := by
  intro s
  have h : Sound decode s := sound_run as
  refine ⟨?_, ?_, fun id sock c hcurrent hsock hup => lines_of_caughtUp h hcurrent hsock hup⟩
  · intro hselected
    cases hcurrent : s.current with
    | none => exact (h.idle hcurrent).2
    | some id => exact absurd hselected (h.follows id hcurrent).1
  · intro ns pod hns hpod hselected
    have hne : s.selected ≠ "" := by
      rw [hselected]
      intro hempty
      have hlength := congrArg String.length hempty
      simp at hlength
    have hshows := showsPod_of_sound h hne
    rwa [hselected, address_key hns hpod] at hshows

example : (runFrom (step fun raw => String.ofList (raw.map fun b => Char.ofNat b.toNat)) start
    [.start ("home", "mqtt"), .write ("home", "mqtt") [104, 105, 10], .select "home/mqtt",
      .attach 0, .send 0, .deliver 0]).lines = ["hi"] := by decide +kernel

end Logs

end PiWatch
