import LibSBus.SPoll.Contents
import LibSBus.SPoll.Dispose
import LibSBus.SContacts.Lookups
import LibSBus.SContacts.Sweeps
import LibSBus.SMessenger.Sends
import LibSBus.SMessenger.Multicast
import LibSBus.SMessenger.NextMsg
import LibSBus.SMessenger.Dialled
import LibSBus.SMessenger.Closing
import LibSBus.SBus.Senders
import LibSBus.SBus.Unused
import LibSBus.SBus.NameTaken
import LibSBus.SBus.Recorded
import LibSBus.SBus.Traffic
import LibSBus.SBus.Transports
import LibSBus.SBus.Contenders
import LibSBus.SBus.Interfaces
import LibSBus.SBus.CRecv
import LibSBus.SBus.Shutdown
import LibSBus.SBus.Accesses
import LibSBus.SContacts.Memory
import LibSBus.SMessenger.ArrayRuns
import LibSBus.SMessenger.Bytes
import LibSBus.SBus.Reliable
import LibSBus.SBus.Arrivals
