import TpSisop.Transiciones
import TpSisop.Intercalado
import TpSisop.Filas
import TpSisop.Guiones
import TpSisop.Cerrojos
import TpSisop.Bucles
import TpSisop.Resultados
import TpSisop.Colecciones
import TpSisop.Enteros
import TpSisop.Extensiones
import TpSisop.Familias
import TpSisop.Codificacion
import TpSisop.Maquina
import TpSisop.MemoriaPaginacion
import TpSisop.MemoriaMarcos
import TpSisop.MemoriaAcceso
import TpSisop.CpuRegistros
import TpSisop.CpuMmu
import TpSisop.CpuTlbCoherencia
import TpSisop.CpuTlbReemplazo
import TpSisop.MemoriaCpu
import TpSisop.Almacen
import TpSisop.MemoriaEspacios
import TpSisop.CpuMemoria
import TpSisop.Tramas
import TpSisop.DialFs
import TpSisop.DialFsInvariante
import TpSisop.DialFsContenido
import TpSisop.DialFsFugas
import TpSisop.DialFsAislamiento
import TpSisop.DialFsReinicio
import TpSisop.DialFsCompactacion
import TpSisop.DialFsEspacio
import TpSisop.KernelEstado
import TpSisop.KernelPlanificacion
import TpSisop.KernelRecursos
import TpSisop.KernelConexion
import TpSisop.KernelVista
import TpSisop.KernelRefinamiento
import TpSisop.KernelSemaforos
import TpSisop.KernelColas
import TpSisop.KernelFilas
import TpSisop.KernelDespertares
import TpSisop.KernelExclusion
import TpSisop.KernelFallas
import TpSisop.KernelListas
import TpSisop.KernelRegistro
import TpSisop.KernelHilos
import TpSisop.KernelRoundRobin
import TpSisop.KernelEncolado
import TpSisop.KernelVrr
import TpSisop.KernelCupo
import TpSisop.KernelAdmision
import TpSisop.EntradaSalida
import TpSisop.EntradaSalidaCola
import TpSisop.EntradaSalidaVarada
import TpSisop.CpuCiclo
import TpSisop.KernelCpu
import TpSisop.KernelMuertes
import TpSisop.KernelVigencia
import TpSisop.CodecContexto
import TpSisop.CodecPeticiones
import TpSisop.CodecReintento
import TpSisop.CpuInstrucciones
import TpSisop.CpuBucles
import TpSisop.KernelContextos
import TpSisop.Transparencia
import TpSisop.KernelHebras
import TpSisop.KernelAcciones
import TpSisop.KernelReglas
import TpSisop.KernelAbrazo
import TpSisop.KernelTurno
import TpSisop.KernelPausa
import TpSisop.KernelGrado
import TpSisop.KernelSolo
import TpSisop.KernelAtomico
import TpSisop.DialFsTruncado
import TpSisop.MemoriaTeclado
import TpSisop.MemoriaServidor
import TpSisop.Traslados
import TpSisop.KernelDevoluciones
import TpSisop.LectorArchivo
import TpSisop.Ensamblador
import TpSisop.LectorArchivoRuta
import TpSisop.Consola
import TpSisop.ConsolaGuiones
